import BuildLang.Grammar.Document
import BuildLang.Proofs.Tree.Slots

/-!
# Moving places

What calls make of their arguments does not depend on where those stand: places may be
changed before the arguments are gathered or after.
-/

set_option autoImplicit false

namespace BuildLang

variable {π ρ : Type} (f : π → ρ)

def Entry.mapPosition (entry : Entry π (Value π)) : Entry ρ (Value ρ) :=
  ⟨entry.key.mapPosition f, entry.value.mapPosition f⟩

def Dict.mapPosition (node : Dict π (Value π)) : Dict ρ (Value ρ) :=
  ⟨node.entries.map (Entry.mapPosition f), node.position.map f⟩

def Constraint.mapPosition : Constraint π (Value π) → Constraint ρ (Value ρ)
  | .dict node => .dict (node.mapPosition f)
  | .identifier node => .identifier (node.mapPosition f)

def Select.mapPosition (node : Select π (Value π)) : Select ρ (Value ρ) :=
  ⟨node.constraint.mapPosition f, node.noMatchError.map (Phrase.mapPosition f),
    node.position.map f⟩

theorem Value.mapPosition_dict (node : Dict π (Value π)) :
    (Value.dict node).mapPosition f = .dict (node.mapPosition f) := by
  rw [Value.mapPosition, Value.mapEntryPositions_eq]
  rfl

theorem Value.mapPosition_select (node : Select π (Value π)) :
    (Value.select node).mapPosition f = .select (node.mapPosition f) := by
  obtain ⟨constraint, message, position⟩ := node
  cases constraint with
  | dict node =>
    rw [Value.mapPosition, Value.mapEntryPositions_eq]
    rfl
  | identifier node => rw [Value.mapPosition]; rfl

/-! ## Arguments -/

def GlobArgument.mapPosition : GlobArgument π → GlobArgument ρ
  | .includes patterns => .includes (patterns.map (Phrase.mapPosition f))
  | .excludes patterns => .excludes (patterns.map (Phrase.mapPosition f))

theorem GlobArgument.mapPosition_named (name : String) (patterns : List (Phrase π)) :
    (GlobArgument.named name patterns).mapPosition f =
      .named name (patterns.map (Phrase.mapPosition f)) := by
  unfold named
  split <;> rfl

theorem Glob.mapPosition_ofArguments (position : Option π) (arguments : List (GlobArgument π)) :
    (Glob.ofArguments position arguments).mapPosition f =
      Glob.ofArguments (position.map f) (arguments.map (GlobArgument.mapPosition f)) := by
  rw [ofArguments, ofArguments, List.foldl_map]
  refine (List.foldl_hom (Glob.mapPosition f) ?_).symm
  intro glob argument
  cases argument <;> rfl

def Argument.mapPosition (argument : Argument π) : Argument ρ :=
  ⟨argument.name, argument.value.mapPosition f⟩

theorem Package.mapPosition_ofArguments (position : Option π) (arguments : List (Argument π)) :
    (Package.ofArguments position arguments).mapPosition f =
      Package.ofArguments (position.map f) (arguments.map (Argument.mapPosition f)) :=
  (mapPosition_carries f).ofArguments position arguments

theorem PackageGroup.mapPosition_ofArguments (position : Option π)
    (arguments : List (Argument π)) :
    (PackageGroup.ofArguments position arguments).mapPosition f =
      PackageGroup.ofArguments (position.map f) (arguments.map (Argument.mapPosition f)) :=
  (mapPosition_carries f).ofArguments position arguments

/-! ## Statements -/

def Statement.mapPosition : Statement π → Statement ρ
  | .load node => .load (node.mapPosition f)
  | .rule node => .rule (node.mapPosition f)
  | .declaration node => .declaration (node.mapPosition f)
  | .package node => .package (node.mapPosition f)
  | .packageGroup node => .packageGroup (node.mapPosition f)
  | .exportsFiles node => .exportsFiles (node.mapPosition f)
  | .skipped => .skipped

@[simp]
theorem Statement.bare_mapPosition (statement : Statement π) :
    (statement.mapPosition f).bare = statement.bare := by
  cases statement <;> simp [Statement.mapPosition, Statement.bare]

end BuildLang
