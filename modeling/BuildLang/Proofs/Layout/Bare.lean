import BuildLang.Proofs.Layout.Emitter
import BuildLang.Proofs.Layout.Values
import BuildLang.Proofs.Tree.Slots
import BuildLang.Proofs.Tree.Sorting

/-!
# Printing reads no places

Trees that are the same but for places have the same text, and so have a file
and the sorted file.
-/

set_option autoImplicit false

namespace BuildLang

variable {π : Type}

/-! ## Values -/

@[simp]
theorem Phrase.raw_bare (phrase : Phrase π) : phrase.bare.raw = phrase.raw := by
  cases phrase <;> rfl

@[simp]
theorem Element.raw_bare (element : Element π) : element.bare.raw = element.raw := by
  cases element <;> rfl

@[simp]
theorem ArrayLiteral.text_bare (array : ArrayLiteral π) : array.bare.text = array.text := by
  simp [ArrayLiteral.text, ArrayLiteral.bare, Function.comp_def]

@[simp]
theorem ArrayOrName.text_bare (node : ArrayOrName π) : node.bare.text = node.text := by
  cases node with
  | array node => exact node.text_bare
  | identifier node => rfl

@[simp]
theorem Glob.text_bare (glob : Glob π) : glob.bare.text = glob.text := by
  simp [Glob.text, Glob.bare, Function.comp_def]

theorem Select.messageText_bare (message : Option (Phrase π)) :
    Select.messageText (message.map Phrase.bare) = Select.messageText message := by
  cases message with
  | none => rfl
  | some phrase => rw [Option.map_some, messageText_some, messageText_some, Phrase.raw_bare]

theorem Select.enclose_bare (constraint : List Line) (message : Option (Phrase π)) :
    Select.enclose constraint (message.map Phrase.bare) = Select.enclose constraint message := by
  rw [enclose, enclose, messageText_bare]

theorem Value.layoutEntries_bare (entries : List (Entry π (Value π)))
    (each : ∀ entry ∈ entries, (Entry.value entry).bare.layout = entry.value.layout) :
    Value.layoutEntries (Value.bareEntries entries) = Value.layoutEntries entries := by
  rw [Value.bareEntries_eq, Value.layoutEntries_eq, Value.layoutEntries_eq, List.flatMap_map]
  refine congrArg List.flatten (List.map_congr_left ?_)
  intro entry member
  have same := each entry member
  simp only [Entry.layout, Entry.bare, same]
  rfl

@[simp]
theorem Value.layout_bare (value : Value π) : value.bare.layout = value.layout := by
  induction value using Value.nestedInduction with
  | string literal => rfl
  | number literal => rfl
  | boolean literal => rfl
  | identifier node => rfl
  | array node => exact congrArg Line.single node.text_bare
  | glob node => exact congrArg Line.single node.text_bare
  | dict entries position each =>
    rw [Value.bare, Value.layout, Value.layout, Value.layoutEntries_bare entries each]
  | selectDict entries inner message position each =>
    rw [Value.bare, Value.layout, Value.layout, Value.layoutEntries_bare entries each,
      Select.enclose_bare]
  | selectName node message position =>
    rw [Value.bare, Value.layout, Value.layout, Select.enclose_bare]
    rfl

/-! ## Statements -/

@[simp]
theorem LoadedSymbol.text_bare (symbol : LoadedSymbol π) : symbol.bare.text = symbol.text := by
  cases symbol <;> rfl

@[simp]
theorem Load.text_bare (load : Load π) : load.bare.text = load.text := by
  rw [text, text, sortedSymbols_bare, List.map_map]
  simp [bare, Function.comp_def]

theorem layoutBinding_bare (name : String) (value : Value π) (ending : String) :
    layoutBinding name value.bare ending = layoutBinding name value ending := by
  rw [layoutBinding, layoutBinding, Value.layout_bare]

@[simp]
theorem Declaration.layout_bare (declaration : Declaration π) :
    declaration.bare.layout = declaration.layout :=
  layoutBinding_bare declaration.name declaration.value ""

theorem Rule.layoutAttributes_bare (attributes : List (Attribute π)) :
    Rule.layoutAttributes (attributes.map Attribute.bare) = Rule.layoutAttributes attributes := by
  induction attributes with
  | nil => rfl
  | cons argument others ih =>
    cases others with
    | nil => exact layoutBinding_bare argument.name argument.value ""
    | cons next later =>
      have first := layoutBinding_bare argument.name argument.value ","
      simp only [List.map_cons, layoutAttributes] at ih ⊢
      rw [ih]
      exact congrArg (· ++ _) first

@[simp]
theorem Rule.layout_bare (rule : Rule π) : rule.bare.layout = rule.layout := by
  have attributes := layoutAttributes_bare rule.attributes
  simp only [layout, bare, attributes]

theorem layoutCall_bare (name : String) (arguments : List (Argument π)) :
    layoutCall name (arguments.map Argument.bare) = layoutCall name arguments := by
  simp [layoutCall, List.flatMap_map, Argument.bare, layoutBinding_bare]

theorem Package.entries_bare (package : Package π) :
    package.bare.entries = package.entries.map Argument.bare :=
  bare_carries.entries package

theorem PackageGroup.entries_bare (group : PackageGroup π) :
    group.bare.entries = group.entries.map Argument.bare :=
  bare_carries.entries group

@[simp]
theorem ExportsFiles.layout_bare (exports : ExportsFiles π) :
    exports.bare.layout = exports.layout := by
  obtain ⟨files, visibility, position⟩ := exports
  cases visibility <;> simp [layout, bare]

/-! ## Files -/

namespace BuildFile

theorem layoutLoads_bare (file : BuildFile π) : file.bare.layoutLoads = file.layoutLoads := by
  rw [layoutLoads, layoutLoads, sortedLoads_bare, List.flatMap_map]
  simp

theorem layoutSections_bare (file : BuildFile π) :
    file.bare.layoutSections = file.layoutSections := by
  have loads := file.layoutLoads_bare
  simp only [layoutSections, loads]
  simp [bare, Function.comp_def, List.flatMap_map, Package.entries_bare,
    PackageGroup.entries_bare, layoutCall_bare]

/-- The text of a file is a matter of its sections and of nothing else. -/
theorem print_eq_of_sections {ρ : Type} (file : BuildFile π) (other : BuildFile ρ)
    (loads : file.layoutLoads = other.layoutLoads)
    (sections : file.layoutSections = other.layoutSections) (options : PrintOptions) :
    file.print options = other.print options := by
  obtain ⟨scope, indent⟩ := options
  cases scope with
  | all => rw [print_eq, print_eq, layout, layout, sections]
  | loads => rw [print, print, printLoads_eq, printLoads_eq, loads]

theorem print_bare (options : PrintOptions) (file : BuildFile π) :
    file.bare.print options = file.print options :=
  print_eq_of_sections _ _ file.layoutLoads_bare file.layoutSections_bare options

/-- Places make no difference to the text. -/
theorem print_congr {ρ : Type} (options : PrintOptions) (file : BuildFile π) (other : BuildFile ρ)
    (same : file.bare = other.bare) : file.print options = other.print options := by
  rw [← print_bare, same, print_bare]

theorem layoutLoads_sorted (file : BuildFile π) : file.sorted.layoutLoads = file.layoutLoads := by
  have text (load : Load π) : load.sorted.text = load.text := by
    simp only [Load.text, Load.sortedSymbols_sorted]
    rfl
  rw [layoutLoads, layoutLoads, sortedLoads_sorted, List.flatMap_map]
  simp [text]

/-- Sorting a file makes no difference to its text. -/
theorem print_sorted (options : PrintOptions) (file : BuildFile π) :
    file.sorted.print options = file.print options := by
  have loads := file.layoutLoads_sorted
  have sections : file.sorted.layoutSections = file.layoutSections := by
    simp only [layoutSections, loads]
    rfl
  exact print_eq_of_sections _ _ loads sections options

/-! ## The load block alone -/

/-- The file with nothing but its loads. -/
def onlyLoads (file : BuildFile π) : BuildFile π :=
  { loads := file.loads }

theorem layout_onlyLoads (file : BuildFile π) : file.onlyLoads.layout = file.layoutLoads := by
  have loads : file.onlyLoads.layoutSections = [file.layoutLoads, []] := rfl
  rw [layout, loads, Line.sections]
  cases file.layoutLoads with
  | nil => rfl
  | cons line others => simp

/-- The load block is the text of the file with nothing but its loads. -/
theorem printLoads_onlyLoads (file : BuildFile π) (indent : String) :
    file.onlyLoads.print ⟨.all, indent⟩ = file.printLoads := by
  rw [print_eq, layout_onlyLoads, printLoads_eq]
  exact renderAll_flat indent _ file.layoutLoads_flat

end BuildFile

end BuildLang
