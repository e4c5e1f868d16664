import BuildLang.Proofs.Grammar.Form
import BuildLang.Proofs.Tree.Sorting

/-!
# Canonical derivations

Each tree has a derivation that writes it the way the printer does.  No comma in
it is one too many, and the tree it stands for is the given one, but for places
and the order of loads.
-/

set_option autoImplicit false

namespace BuildLang

namespace Written

/-- The stretch has no comma too many, and wherever it stands its tree is `tree`
once `bare` has taken the places out. -/
structure Stands {α γ : Type} (written : Written α) (bare : α → γ) (tree : γ) : Prop where
  clean : ∀ start, written.surplus start = []
  same : ∀ start, bare (written.tree start) = tree

namespace Stands

variable {α β γ δ σ : Type} {written : Written α} {bare : α → γ} {tree : γ}

theorem mapAt {f : Nat → α → β} {other : β → δ} {result : δ}
    (stands : written.Stands bare tree)
    (image : ∀ start inner, bare inner = tree → other (f start inner) = result) :
    (written.mapAt f).Stands other result :=
  ⟨stands.clean, fun start => image start _ (stands.same start)⟩

theorem map {f : α → β} {other : β → δ} {result : δ} (stands : written.Stands bare tree)
    (image : ∀ inner, bare inner = tree → other (f inner) = result) :
    (written.map f).Stands other result :=
  stands.mapAt fun _ => image

theorem behind (front : List Token) (stands : written.Stands bare tree) :
    (written.behind front).Stands bare tree :=
  ⟨fun _ => stands.clean _, fun _ => stands.same _⟩

theorem before (back : List Token) (stands : written.Stands bare tree) :
    (written.before back).Stands bare tree :=
  ⟨stands.clean, stands.same⟩

theorem between (opening closing : Token) (stands : written.Stands bare tree) :
    (written.between opening closing).Stands bare tree :=
  ⟨fun _ => stands.clean _, fun _ => stands.same _⟩

theorem seq {second : Written β} {other : β → δ} {result : δ}
    (stands : written.Stands bare tree) (rest : second.Stands other result) :
    (written.seq second).Stands (fun pair => (bare pair.1, other pair.2)) (tree, result) := by
  constructor
  · intro start
    exact List.append_eq_nil_iff.mpr ⟨stands.clean _, rest.clean _⟩
  · intro start
    exact Prod.ext (stands.same _) (rest.same _)

theorem optional {write : σ → Written α} {f : σ → γ} (source : Option σ)
    (each : ∀ item ∈ source, (write item).Stands bare (f item)) :
    (Written.optional (source.map write)).Stands (Option.map bare) (source.map f) := by
  cases source with
  | none => exact ⟨fun _ => rfl, fun _ => rfl⟩
  | some item =>
    have stands := each item rfl
    exact ⟨stands.clean, fun start => congrArg some (stands.same start)⟩

theorem items {write : σ → Written α} {f : σ → γ} (sources : List σ)
    (each : ∀ item ∈ sources, (write item).Stands bare (f item)) (start : Nat) :
    itemSurplus start (sources.map write) = [] ∧
      (itemTrees start (sources.map write)).map bare = sources.map f := by
  induction sources generalizing start with
  | nil => exact ⟨rfl, rfl⟩
  | cons item others ih =>
    have stands := each item (by simp)
    obtain ⟨clean, same⟩ := ih (fun later member => each later (by simp [member]))
      (start + (write item).tokens.length + 1)
    refine ⟨?_, ?_⟩
    · exact List.append_eq_nil_iff.mpr ⟨stands.clean start, clean⟩
    · rw [List.map_cons, itemTrees, List.map_cons, List.map_cons, stands.same start, same]

theorem list {τ : Type} {form : σ → τ} {write : τ → Written α} {f : σ → γ}
    (trailing : TrailingComma) (sources : List σ) (comma : Bool)
    (admitted : comma = true → trailing = .allowed)
    (each : ∀ item ∈ sources, (write (form item)).Stands bare (f item)) :
    ((ListForm.mk (sources.map form) comma).written trailing write).Stands (List.map bare)
      (sources.map f) := by
  have whole (start : Nat) : itemSurplus start ((sources.map form).map write) = [] ∧
      (itemTrees start ((sources.map form).map write)).map bare = sources.map f := by
    rw [List.map_map]
    exact items sources each start
  constructor
  · intro start
    have clean := (whole start).1
    cases comma with
    | false => simpa [ListForm.written, Written.list] using clean
    | true =>
      obtain rfl := admitted rfl
      simpa [ListForm.written, Written.list, trailingSurplus] using clean
  · intro start
    exact (whole start).2

theorem many {write : σ → Written α} {f : σ → γ} (sources : List σ)
    (each : ∀ item ∈ sources, (write item).Stands bare (f item)) :
    (Written.many (sources.map write)).Stands (List.map bare) (sources.map f) := by
  induction sources with
  | nil => exact ⟨fun _ => rfl, fun _ => rfl⟩
  | cons item others ih =>
    have first := each item (by simp)
    have rest := ih (fun later member => each later (by simp [member]))
    refine (first.seq rest).map ?_
    intro inner same
    exact congrArg (fun pair : γ × List γ => pair.1 :: pair.2) same

end Stands

end Written

variable {π : Type}

/-! ## Values -/

def Phrase.form : Phrase π → PhraseForm
  | .string literal => .string literal.raw
  | .identifier node => .identifier node.name

def Element.form : Element π → ElementForm
  | .string literal => .string literal.raw
  | .number literal => .number literal.raw
  | .boolean literal => .boolean literal.value
  | .identifier node => .identifier node.name

def ArrayLiteral.form (array : ArrayLiteral π) : ListForm ElementForm :=
  ⟨array.elements.map Element.form, false⟩

def ArrayOrName.form : ArrayOrName π → ArrayOrNameForm
  | .array node => .array node.form
  | .identifier node => .identifier node.name

def GlobArgument.form : GlobArgument π → GlobArgumentForm
  | .includes patterns => .plain ⟨patterns.map Phrase.form, false⟩
  | .excludes patterns => .named "exclude" ⟨patterns.map Phrase.form, false⟩

/-- The arguments that a glob is written with. -/
def Glob.arguments (glob : Glob π) : List (GlobArgument π) :=
  (glob.includes.map .includes).toList ++ (glob.excludes.map .excludes).toList

def Glob.form (glob : Glob π) : ListForm GlobArgumentForm :=
  ⟨glob.arguments.map GlobArgument.form, false⟩

namespace Value

mutual

def form : Value π → ValueForm
  | .string literal => .string literal.raw
  | .number literal => .number literal.raw
  | .boolean literal => .boolean literal.value
  | .array node => .array node.form
  | .identifier node => .identifier node.name
  | .glob node => .glob node.form
  | .dict ⟨entries, _⟩ => .dict ⟨entryForms entries, true⟩
  | .select ⟨.dict ⟨entries, _⟩, message, _⟩ =>
      .select ⟨.dict ⟨entryForms entries, true⟩, message.map Phrase.form⟩
  | .select ⟨.identifier node, message, _⟩ =>
      .select ⟨.identifier node.name, message.map Phrase.form⟩

def entryForms : List (Entry π (Value π)) → List (EntryForm ValueForm)
  | [] => []
  | ⟨key, value⟩ :: rest => ⟨key.raw, form value⟩ :: entryForms rest

end

end Value

def Entry.form (entry : Entry π (Value π)) : EntryForm ValueForm :=
  ⟨entry.key.raw, entry.value.form⟩

theorem Value.entryForms_eq (entries : List (Entry π (Value π))) :
    Value.entryForms entries = entries.map Entry.form := by
  induction entries with
  | nil => rw [Value.entryForms, List.map_nil]
  | cons entry rest ih =>
    rw [Value.entryForms, List.map_cons, ih]
    rfl

def Dict.form (node : Dict π (Value π)) : ListForm (EntryForm ValueForm) :=
  ⟨node.entries.map Entry.form, true⟩

def Constraint.form : Constraint π (Value π) → ConstraintForm ValueForm
  | .dict node => .dict node.form
  | .identifier node => .identifier node.name

def Select.form (node : Select π (Value π)) : SelectForm ValueForm :=
  ⟨node.constraint.form, node.noMatchError.map Phrase.form⟩

theorem Value.form_dict (node : Dict π (Value π)) : (Value.dict node).form = .dict node.form := by
  rw [Value.form, Value.entryForms_eq]
  rfl

theorem Value.form_select (node : Select π (Value π)) :
    (Value.select node).form = .select node.form := by
  obtain ⟨constraint, message, position⟩ := node
  cases constraint with
  | dict node =>
    rw [Value.form, Value.entryForms_eq]
    rfl
  | identifier node => rfl

open Written

theorem stands_name (text : String) : (Written.name text).Stands id text :=
  ⟨fun _ => rfl, fun _ => rfl⟩

theorem stands_string (raw : String) :
    (Written.string raw).Stands StringLiteral.bare ⟨raw, none⟩ :=
  ⟨fun _ => rfl, fun _ => rfl⟩

theorem Phrase.stands (phrase : Phrase π) :
    phrase.form.written.Stands Phrase.bare phrase.bare := by
  cases phrase <;> exact ⟨fun _ => rfl, fun _ => rfl⟩

theorem Element.stands (element : Element π) :
    element.form.written.Stands Element.bare element.bare := by
  cases element <;> exact ⟨fun _ => rfl, fun _ => rfl⟩

theorem ArrayLiteral.stands (array : ArrayLiteral π) :
    (Written.array array.form).Stands ArrayLiteral.bare array.bare := by
  have elements : (array.form.written (.rejected .array) ElementForm.written).Stands
      (List.map Element.bare) (array.elements.map Element.bare) :=
    .list _ array.elements false (by simp) (fun element _ => element.stands)
  refine (elements.between _ _).mapAt ?_
  intro start inner same
  exact congrArg (fun elements => ArrayLiteral.mk elements none) same

theorem ArrayOrName.stands (node : ArrayOrName π) :
    node.form.written.Stands ArrayOrName.bare node.bare := by
  cases node with
  | array node => exact node.stands.map fun inner same => congrArg ArrayOrName.array same
  | identifier node => exact ⟨fun _ => rfl, fun _ => rfl⟩

def GlobArgument.bare : GlobArgument π → GlobArgument Empty
  | .includes patterns => .includes (patterns.map Phrase.bare)
  | .excludes patterns => .excludes (patterns.map Phrase.bare)

theorem exclude_excludes (patterns : List (Phrase π)) :
    GlobArgument.named "exclude" patterns = .excludes patterns := by
  have different : "exclude".toLower ≠ "include" := by
    intro same
    have letters : ("exclude".map Char.toLower).toList = "include".toList :=
      congrArg String.toList same
    rw [String.toList_map] at letters
    revert letters
    decide
  exact if_neg different

theorem Phrase.stands_patterns (patterns : List (Phrase π)) :
    (Written.patterns ⟨patterns.map Phrase.form, false⟩).Stands (List.map Phrase.bare)
      (patterns.map Phrase.bare) :=
  (Stands.list (.rejected .array) patterns false (by simp)
    (fun phrase _ => phrase.stands)).between _ _

theorem GlobArgument.stands (argument : GlobArgument π) :
    argument.form.written.Stands GlobArgument.bare argument.bare := by
  cases argument with
  | includes patterns =>
    refine (Phrase.stands_patterns patterns).map ?_
    intro inner same
    exact congrArg GlobArgument.includes same
  | excludes patterns =>
    refine (((stands_name "exclude").before _).seq (Phrase.stands_patterns patterns)).map ?_
    rintro ⟨name, inner⟩ same
    obtain ⟨rfl, found⟩ := Prod.mk.inj same
    have excluded : GlobArgument.named "exclude" inner = .excludes inner := exclude_excludes inner
    exact (congrArg GlobArgument.bare excluded).trans (congrArg GlobArgument.excludes found)

theorem Glob.bare_store (glob : Glob π) (argument : GlobArgument π) :
    (GlobArgument.store glob argument).bare = GlobArgument.store glob.bare argument.bare := by
  cases argument <;> rfl

theorem Glob.bare_ofArguments (position : Option π) (arguments : List (GlobArgument π)) :
    (Glob.ofArguments position arguments).bare =
      Glob.ofArguments none (arguments.map GlobArgument.bare) := by
  rw [ofArguments, ofArguments, List.foldl_map]
  exact (List.foldl_hom bare fun glob argument => (bare_store glob argument).symm).symm

theorem Glob.ofArguments_arguments (glob : Glob π) :
    Glob.ofArguments none (glob.arguments.map GlobArgument.bare) = glob.bare := by
  obtain ⟨includes, excludes, position⟩ := glob
  cases includes <;> cases excludes <;> rfl

theorem Glob.stands (glob : Glob π) : (Written.glob glob.form).Stands Glob.bare glob.bare := by
  have arguments : (glob.form.written .allowed GlobArgumentForm.written).Stands
      (List.map GlobArgument.bare) (glob.arguments.map GlobArgument.bare) :=
    .list _ glob.arguments false (by simp) (fun argument _ => argument.stands)
  refine ((arguments.between _ _).behind _).mapAt ?_
  intro start inner same
  rw [Glob.bare_ofArguments, same, Glob.ofArguments_arguments]

theorem Entry.stands (entry : Entry π (Value π))
    (value : entry.value.form.written.Stands Value.bare entry.value.bare) :
    entry.form.written.Stands Entry.bare entry.bare := by
  have pair := ((stands_string entry.key.raw).before [.colon]).seq value
  refine pair.map (f := fun pair : StringLiteral Nat × Value Nat => Entry.mk pair.1 pair.2) ?_
  intro inner same
  exact congrArg (fun pair : StringLiteral Empty × Value Empty => Entry.mk pair.1 pair.2) same

theorem Dict.stands (node : Dict π (Value π))
    (each : ∀ entry ∈ node.entries, entry.value.form.written.Stands Value.bare entry.value.bare) :
    (Written.dictOf node.form).Stands Dict.bare node.bare := by
  have entries : (node.form.written .allowed EntryForm.written).Stands (List.map Entry.bare)
      (node.entries.map Entry.bare) :=
    .list _ node.entries true (fun _ => rfl) (fun entry member => entry.stands (each entry member))
  refine (entries.between .leftBrace .rightBrace).mapAt
    (f := fun start entries => Dict.mk entries (some start)) ?_
  intro start inner same
  exact congrArg (fun entries => Dict.mk entries none) same

theorem Select.stands (node : Select π (Value π))
    (constraint : node.constraint.form.written.Stands Constraint.bare node.constraint.bare) :
    node.form.written.Stands Select.bare node.bare := by
  have phrase : (Written.optional (node.form.message.map Written.message)).Stands
      (Option.map Phrase.bare) (node.noMatchError.map Phrase.bare) := by
    rw [Select.form, Option.map_map]
    exact .optional node.noMatchError fun phrase _ => phrase.stands.behind _
  have call := ((constraint.seq phrase).between .leftParen .rightParen).behind
    [.identifier "select"]
  refine call.mapAt (f := fun start (pair : Constraint Nat (Value Nat) × Option (Phrase Nat)) =>
    Select.mk pair.1 pair.2 (some start)) ?_
  intro start inner same
  exact congrArg (fun pair : Constraint Empty (Value Empty) × Option (Phrase Empty) =>
    Select.mk pair.1 pair.2 none) same

theorem Value.stands (value : Value π) : value.form.written.Stands Value.bare value.bare := by
  induction value using Value.nestedInduction with
  | string literal => exact ⟨fun _ => rfl, fun _ => rfl⟩
  | number literal => exact ⟨fun _ => rfl, fun _ => rfl⟩
  | boolean literal => exact ⟨fun _ => rfl, fun _ => rfl⟩
  | identifier node => exact ⟨fun _ => rfl, fun _ => rfl⟩
  | array node => exact node.stands.map fun inner same => congrArg Value.array same
  | glob node => exact node.stands.map fun inner same => congrArg Value.glob same
  | dict entries position each =>
    rw [Value.form_dict, ValueForm.written_dict, Value.bare_dict]
    refine (Dict.stands ⟨entries, position⟩ each).map ?_
    intro inner same
    rw [Value.bare_dict, same]
  | selectDict entries inner message position each =>
    rw [Value.form_select, ValueForm.written_select, Value.bare_select]
    have constraint : (Constraint.dict ⟨entries, inner⟩).form.written.Stands Constraint.bare
        (Constraint.dict ⟨entries, inner⟩).bare :=
      (Dict.stands ⟨entries, inner⟩ each).map fun node same => congrArg Constraint.dict same
    refine (Select.stands ⟨.dict ⟨entries, inner⟩, message, position⟩ constraint).map ?_
    intro node same
    rw [Value.bare_select, same]
  | selectName name message position =>
    rw [Value.form_select, ValueForm.written_select, Value.bare_select]
    have constraint : (Constraint.identifier name : Constraint π (Value π)).form.written.Stands
        Constraint.bare (.identifier name.bare) := ⟨fun _ => rfl, fun _ => rfl⟩
    refine (Select.stands ⟨.identifier name, message, position⟩ constraint).map ?_
    intro node same
    rw [Value.bare_select, same]

end BuildLang
