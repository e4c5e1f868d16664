import BuildLang.Check.Value

/-!
# Checks of files

Checks of the statements of a file, down to the values in them.  The first failure
is the verdict.
-/

set_option autoImplicit false

namespace BuildLang

inductive LoadCheck where
  | source (expected : String)
  | symbols (expected : List String)
  | localNames (expected : List String)
  deriving Repr

inductive RuleCheck where
  | kind (expected : String)
  | name (expected : String)
  | attributeNames (expected : List String)
  | attributeAt (index : Nat) (checks : List ValueCheck)

inductive DeclarationCheck where
  | name (expected : String)
  | value (checks : List ValueCheck)

/-- Checks of the filled slots of a package or a package group. -/
inductive SlotCheck where
  | slots (expected : List String)
  | slot (key : String) (checks : List ValueCheck)

inductive FileCheck where
  | loadCount (expected : Nat)
  | ruleCount (expected : Nat)
  | declarationCount (expected : Nat)
  | noPackage
  | load (index : Nat) (checks : List LoadCheck)
  | rule (index : Nat) (checks : List RuleCheck)
  | declaration (index : Nat) (checks : List DeclarationCheck)
  | package (checks : List SlotCheck)
  | packageGroup (checks : List SlotCheck)
  | exportsFiles (names : List String)

def LoadCheck.run (context : String) (load : Load Position) : LoadCheck → Verdict
  | .source expected => (TextMatch.exact expected).check load.source context
  | .symbols expected =>
      checkTexts s!"{context}: symbols differ" (load.symbols.map LoadedSymbol.symbol) expected
  | .localNames expected =>
      checkTexts s!"{context}: local names differ" (load.symbols.map LoadedSymbol.localName)
        expected

def RuleCheck.run (context : String) (rule : Rule Position) : RuleCheck → Verdict
  | .kind expected => (TextMatch.exact expected).check rule.kind context
  | .name expected =>
      match rule.name? with
      | some found => (TextMatch.exact expected).check found context
      | none => .error s!"{context}: rule has no string `name` attribute"
  | .attributeNames expected =>
      checkTexts s!"{context}: attribute names differ" (rule.attributes.map Attribute.name)
        expected
  | .attributeAt index checks =>
      match rule.attributes[index]? with
      | some argument =>
          ValueCheck.runAll s!"{context}.attributes[{index}]" argument.value checks
      | none =>
          let count := rule.attributes.length
          .error (s!"{context}: attribute index {index} out of bounds " ++
            s!"(rule has {count} attributes)")

def DeclarationCheck.run (context : String) (declaration : Declaration Position) :
    DeclarationCheck → Verdict
  | .name expected => (TextMatch.exact expected).check declaration.name context
  | .value checks => ValueCheck.runAll s!"{context}.initializer" declaration.value checks

def SlotCheck.run (context : String) (slots : List (Argument Position)) : SlotCheck → Verdict
  | .slots expected =>
      checkTexts s!"{context}: filled slots differ" (slots.map Argument.name) expected
  | .slot key checks =>
      match slots.find? (fun slot => slot.name = key) with
      | some found => ValueCheck.runAll s!"{context}.{key}" found.value checks
      | none => .error s!"{context}: slot `{key}` is not set"

namespace FileCheck

/-- The rules of a file, each with its name if it has one. -/
def ruleSummary (rules : List (Rule Position)) : String :=
  ", ".intercalate (rules.map fun rule =>
    match rule.name? with
    | some name => s!"{rule.kind}({name})"
    | none => rule.kind)

def checkCount (message : String) (actual expected : Nat) : Verdict :=
  checkEqual Dump.natural message actual expected

def run (file : BuildFile Position) : FileCheck → Verdict
  | .loadCount expected =>
      let actual := file.loads.length
      let labels := (Dump.strings (file.loads.map Load.source)).text
      checkCount s!"Expected {expected} loads, found {actual}: {labels}" actual expected
  | .ruleCount expected =>
      let actual := file.rules.length
      checkCount s!"Expected {expected} rules, found {actual}: [{ruleSummary file.rules}]" actual
        expected
  | .declarationCount expected =>
      let actual := file.declarations.length
      checkCount s!"Expected {expected} declarations, found {actual}" actual expected
  | .noPackage =>
      match file.package with
      | none => .ok ()
      | some found =>
          let shown := (Dump.option (some found.dump)).text
          .error s!"Expected no package(), found {shown}"
  | .load index checks =>
      match file.loads[index]? with
      | some found => checkAll (LoadCheck.run s!"loads[{index}]" found) checks
      | none =>
          let count := file.loads.length
          .error s!"Load index {index} out of bounds (file has {count} loads)"
  | .rule index checks =>
      match file.rules[index]? with
      | some found => checkAll (RuleCheck.run s!"rules[{index}]" found) checks
      | none =>
          let summary := ruleSummary file.rules
          .error s!"Rule index {index} out of bounds (file has rules [{summary}])"
  | .declaration index checks =>
      match file.declarations[index]? with
      | some found => checkAll (DeclarationCheck.run s!"declarations[{index}]" found) checks
      | none =>
          let count := file.declarations.length
          .error s!"Declaration index {index} out of bounds (file has {count} declarations)"
  | .package checks =>
      match file.package with
      | some found => checkAll (SlotCheck.run "package" found.entries) checks
      | none => .error "Expected a package() declaration, found none"
  | .packageGroup checks =>
      match file.packageGroup with
      | some group => checkAll (SlotCheck.run "package_group" group.entries) checks
      | none => .error "Expected a package_group() declaration, found none"
  | .exportsFiles names =>
      match file.exportsFiles with
      | some exports => checkTexts "exports_files differ" exports.fileNames names
      | none => .error "Expected an exports_files() declaration, found none"

end FileCheck

end BuildLang
