import BuildLang.Grammar.Document

/-!
# Placement

Statements come in phases: loads, then the body, then the package call, then the
package group.  The grammar takes them in any order; what is out of place is
reported here, and enters the tree all the same.
-/

set_option autoImplicit false

namespace BuildLang

inductive Phase where
  | loads
  | body
  | package
  | packageGroup
  deriving DecidableEq, Repr

def Phase.rank : Phase → Nat
  | .loads => 0
  | .body => 1
  | .package => 2
  | .packageGroup => 3

def Phase.later (first second : Phase) : Phase :=
  if first.rank < second.rank then second else first

/-- The phase a statement belongs to; skipped input belongs to none. -/
def Statement.phase? {π : Type} : Statement π → Option Phase
  | .load _ => some .loads
  | .rule _ => some .body
  | .declaration _ => some .body
  | .exportsFiles _ => some .body
  | .package _ => some .package
  | .packageGroup _ => some .packageGroup
  | .skipped => none

def Statement.describe {π : Type} : Statement π → String
  | .load _ => "load()"
  | .package _ => "package()"
  | .packageGroup _ => "package_group()"
  | .exportsFiles _ => "exports_files()"
  | .rule _ => "rule"
  | .declaration _ => "variable declaration"
  | .skipped => "unparsed input"

inductive Misplacement where
  | lateLoad
  | lateBody
  | duplicate
  | latePackage
  deriving DecidableEq, Repr

def Misplacement.message (what : String) : Misplacement → String
  | .lateLoad => s!"{what} must come before every other statement"
  | .lateBody => s!"{what} is not allowed after package() or package_group()"
  | .duplicate => s!"duplicate {what}"
  | .latePackage => s!"{what} must come before package_group()"

/-- A remark about the token `start`. -/
structure Remark where
  start : Nat
  message : String
  deriving DecidableEq, Repr

/-- The tree so far, the phase it is in, and the remarks on it. -/
structure Assembly where
  file : BuildFile Nat := {}
  phase : Phase := .loads
  remarks : List Remark := []

namespace Assembly

/-- What is wrong with the place of a statement, if anything is. -/
def misplacement? (assembly : Assembly) : Statement Nat → Option Misplacement
  | .load _ => if Phase.loads.rank < assembly.phase.rank then some .lateLoad else none
  | .rule _ | .declaration _ | .exportsFiles _ =>
      if Phase.body.rank < assembly.phase.rank then some .lateBody else none
  | .package _ =>
      if assembly.file.package.isSome then some .duplicate
      else if Phase.package.rank < assembly.phase.rank then some .latePackage
      else none
  | .packageGroup _ =>
      if assembly.file.packageGroup.isSome then some .duplicate else none
  | .skipped => none

/-- The assembly with one more step.  A late load does not lead back. -/
def add (assembly : Assembly) (step : Step) : Assembly :=
  let remark := (assembly.misplacement? step.statement).map fun misplacement =>
    ⟨step.start, misplacement.message step.statement.describe⟩
  { file := assembly.file.add step.statement
    phase := match step.statement.phase? with
      | some phase => assembly.phase.later phase
      | none => assembly.phase
    remarks := assembly.remarks ++ remark.toList }

end Assembly

def assemble (steps : List Step) : Assembly :=
  steps.foldl Assembly.add {}

end BuildLang
