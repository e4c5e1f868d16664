import BuildLang.Grammar.Value
import BuildLang.Proofs.Text.LetterCase
import BuildLang.Proofs.Tree.Slots

/-!
# Arguments of globs

A glob has two slots, and each of its arguments goes into one of them: into which is a
matter of the name it was given.
-/

set_option autoImplicit false

namespace BuildLang

variable {π : Type}

/-! ## Lists that are kept -/

def GlobArgument.patterns : GlobArgument π → List (Phrase π)
  | .includes patterns => patterns
  | .excludes patterns => patterns

theorem GlobArgument.patterns_named (name : String) (patterns : List (Phrase π)) :
    (GlobArgument.named name patterns).patterns = patterns := by
  unfold named
  split <;> rfl

/-- The lists of a glob are those of some arguments. -/
def Glob.KeepsOnly (arguments : List (GlobArgument π)) (glob : Glob π) : Prop :=
  ∀ patterns, patterns ∈ glob.includes ∨ patterns ∈ glob.excludes →
    ∃ argument ∈ arguments, argument.patterns = patterns

theorem Glob.ofArguments_keepsOnly (position : Option π) (arguments : List (GlobArgument π)) :
    (Glob.ofArguments position arguments).KeepsOnly arguments := by
  refine List.foldlRecOn arguments GlobArgument.store ?_ ?_
  · rintro patterns (included | excluded)
    · cases included
    · cases excluded
  · intro glob before argument member patterns found
    cases argument with
    | includes given =>
      rcases found with included | excluded
      · exact ⟨_, member, Option.some.inj included⟩
      · exact before patterns (.inr excluded)
    | excludes given =>
      rcases found with included | excluded
      · exact before patterns (.inl included)
      · exact ⟨_, member, Option.some.inj excluded⟩

theorem Glob.position_ofArguments (position : Option π) (arguments : List (GlobArgument π)) :
    (Glob.ofArguments position arguments).position = position := by
  refine List.foldlRecOn (motive := fun glob => glob.position = position) arguments
    GlobArgument.store ?_ ?_
  · rfl
  · intro glob before argument _
    cases argument <;> exact before

/-! ## Lists under their names -/

/-- A list of patterns as it stands in a glob, with its name if it has one. -/
structure GlobList (π : Type) where
  name : Option String
  patterns : List (Phrase π)

namespace GlobList

/-- A list without a name, or named `include` in whatever letter case. -/
def isInclude (list : GlobList π) : Bool :=
  match list.name with
  | none => true
  | some name => decide (SpellsWord "include" name)

def argument (list : GlobList π) : GlobArgument π :=
  match list.name with
  | none => .includes list.patterns
  | some name => .named name list.patterns

theorem argument_eq (list : GlobList π) :
    list.argument =
      if list.isInclude = true then .includes list.patterns else .excludes list.patterns := by
  obtain ⟨name, patterns⟩ := list
  cases name with
  | none => rfl
  | some name =>
    have spelled := toLower_eq_iff "include" name rfl
    simp [argument, isInclude, GlobArgument.named, spelled]

end GlobList

namespace Glob

theorem includes_ofArguments (position : Option π) (lists : List (GlobList π)) :
    (ofArguments position (lists.map GlobList.argument)).includes =
      lastOf GlobList.isInclude GlobList.patterns lists := by
  rw [ofArguments, List.foldl_map]
  refine foldl_lastOf _ includes _ _ ?_ _ rfl lists
  intro glob list
  rw [list.argument_eq]
  cases list.isInclude <;> rfl

theorem excludes_ofArguments (position : Option π) (lists : List (GlobList π)) :
    (ofArguments position (lists.map GlobList.argument)).excludes =
      lastOf (fun list => !list.isInclude) GlobList.patterns lists := by
  rw [ofArguments, List.foldl_map]
  refine foldl_lastOf _ excludes _ _ ?_ _ rfl lists
  intro glob list
  rw [list.argument_eq]
  cases list.isInclude <;> rfl

end Glob

end BuildLang
