import BuildLang.Tree.File

/-!
# Trees without places

Two trees are alike if they are the same but for the places of their nodes, that
is, if they become equal once every place is taken out.
-/

set_option autoImplicit false

namespace BuildLang

variable {π ρ : Type}

namespace Value

/-- What an induction over values has to show: of a dict and of a select over one,
given that it holds of the values in it. -/
structure Cases (motive : Value π → Prop) : Prop where
  string : ∀ literal, motive (.string literal)
  number : ∀ literal, motive (.number literal)
  boolean : ∀ literal, motive (.boolean literal)
  array : ∀ node, motive (.array node)
  identifier : ∀ node, motive (.identifier node)
  glob : ∀ node, motive (.glob node)
  dict : ∀ entries position, (∀ entry ∈ entries, motive (Entry.value entry)) →
    motive (.dict ⟨entries, position⟩)
  selectDict : ∀ entries inner message position,
    (∀ entry ∈ entries, motive (Entry.value entry)) →
      motive (.select ⟨.dict ⟨entries, inner⟩, message, position⟩)
  selectName : ∀ node message position,
    motive (.select ⟨.identifier node, message, position⟩)

mutual

theorem ofCases {motive : Value π → Prop} (cases : Cases motive) : ∀ value, motive value
  | .string literal => cases.string literal
  | .number literal => cases.number literal
  | .boolean literal => cases.boolean literal
  | .array node => cases.array node
  | .identifier node => cases.identifier node
  | .glob node => cases.glob node
  | .dict ⟨entries, position⟩ => cases.dict entries position (ofCases_entries cases entries)
  | .select ⟨.dict ⟨entries, inner⟩, message, position⟩ =>
      cases.selectDict entries inner message position (ofCases_entries cases entries)
  | .select ⟨.identifier node, message, position⟩ => cases.selectName node message position

theorem ofCases_entries {motive : Value π → Prop} (cases : Cases motive) :
    ∀ entries : List (Entry π (Value π)), ∀ entry ∈ entries, motive (Entry.value entry)
  | [] => fun _ member => nomatch member
  | ⟨key, value⟩ :: rest => fun entry member => by
      rcases List.mem_cons.mp member with rfl | later
      · exact ofCases cases value
      · exact ofCases_entries cases rest entry later

end

@[elab_as_elim]
theorem nestedInduction {motive : Value π → Prop}
    (string : ∀ literal, motive (.string literal))
    (number : ∀ literal, motive (.number literal))
    (boolean : ∀ literal, motive (.boolean literal))
    (array : ∀ node, motive (.array node))
    (identifier : ∀ node, motive (.identifier node))
    (glob : ∀ node, motive (.glob node))
    (dict : ∀ entries position, (∀ entry ∈ entries, motive (Entry.value entry)) →
      motive (.dict ⟨entries, position⟩))
    (selectDict : ∀ entries inner message position,
      (∀ entry ∈ entries, motive (Entry.value entry)) →
        motive (.select ⟨.dict ⟨entries, inner⟩, message, position⟩))
    (selectName : ∀ node message position,
      motive (.select ⟨.identifier node, message, position⟩))
    (value : Value π) : motive value :=
  ofCases ⟨string, number, boolean, array, identifier, glob, dict, selectDict, selectName⟩ value

end Value

/-! ## Nodes without places -/

def StringLiteral.bare (literal : StringLiteral π) : StringLiteral Empty :=
  ⟨literal.raw, none⟩

def NumberLiteral.bare (literal : NumberLiteral π) : NumberLiteral Empty :=
  ⟨literal.raw, none⟩

def BooleanLiteral.bare (literal : BooleanLiteral π) : BooleanLiteral Empty :=
  ⟨literal.value, none⟩

def Identifier.bare (node : Identifier π) : Identifier Empty :=
  ⟨node.name, none⟩

def Phrase.bare : Phrase π → Phrase Empty
  | .string literal => .string literal.bare
  | .identifier node => .identifier node.bare

def Element.bare : Element π → Element Empty
  | .string literal => .string literal.bare
  | .number literal => .number literal.bare
  | .boolean literal => .boolean literal.bare
  | .identifier node => .identifier node.bare

def ArrayLiteral.bare (array : ArrayLiteral π) : ArrayLiteral Empty :=
  ⟨array.elements.map Element.bare, none⟩

def ArrayOrName.bare : ArrayOrName π → ArrayOrName Empty
  | .array node => .array node.bare
  | .identifier node => .identifier node.bare

def Glob.bare (glob : Glob π) : Glob Empty :=
  ⟨glob.includes.map (List.map Phrase.bare), glob.excludes.map (List.map Phrase.bare), none⟩

namespace Value

mutual

def bare : Value π → Value Empty
  | .string literal => .string literal.bare
  | .number literal => .number literal.bare
  | .boolean literal => .boolean literal.bare
  | .array node => .array node.bare
  | .identifier node => .identifier node.bare
  | .glob node => .glob node.bare
  | .dict ⟨entries, _⟩ => .dict ⟨bareEntries entries, none⟩
  | .select ⟨.dict ⟨entries, _⟩, message, _⟩ =>
      .select ⟨.dict ⟨bareEntries entries, none⟩, message.map Phrase.bare, none⟩
  | .select ⟨.identifier node, message, _⟩ =>
      .select ⟨.identifier node.bare, message.map Phrase.bare, none⟩

def bareEntries : List (Entry π (Value π)) → List (Entry Empty (Value Empty))
  | [] => []
  | ⟨key, value⟩ :: rest => ⟨key.bare, bare value⟩ :: bareEntries rest

end

end Value

def Entry.bare (entry : Entry π (Value π)) : Entry Empty (Value Empty) :=
  ⟨entry.key.bare, entry.value.bare⟩

theorem Value.bareEntries_eq (entries : List (Entry π (Value π))) :
    Value.bareEntries entries = entries.map Entry.bare := by
  induction entries with
  | nil => rw [Value.bareEntries, List.map_nil]
  | cons entry rest ih =>
    rw [Value.bareEntries, List.map_cons, ih]
    rfl

def Dict.bare (node : Dict π (Value π)) : Dict Empty (Value Empty) :=
  ⟨node.entries.map Entry.bare, none⟩

def Constraint.bare : Constraint π (Value π) → Constraint Empty (Value Empty)
  | .dict node => .dict node.bare
  | .identifier node => .identifier node.bare

def Select.bare (node : Select π (Value π)) : Select Empty (Value Empty) :=
  ⟨node.constraint.bare, node.noMatchError.map Phrase.bare, none⟩

theorem Value.bare_dict (node : Dict π (Value π)) : (Value.dict node).bare = .dict node.bare := by
  rw [Value.bare, Value.bareEntries_eq]
  rfl

theorem Value.bare_select (node : Select π (Value π)) :
    (Value.select node).bare = .select node.bare := by
  obtain ⟨constraint, message, position⟩ := node
  cases constraint with
  | dict node =>
    rw [Value.bare, Value.bareEntries_eq]
    rfl
  | identifier node => rfl

def LoadedSymbol.bare : LoadedSymbol π → LoadedSymbol Empty
  | .plain symbol _ => .plain symbol none
  | .renamed name symbol _ => .renamed name symbol none

def Load.bare (load : Load π) : Load Empty :=
  ⟨load.source, load.symbols.map LoadedSymbol.bare, none⟩

def Argument.bare (argument : Argument π) : Argument Empty :=
  ⟨argument.name, argument.value.bare⟩

def Attribute.bare (argument : Attribute π) : Attribute Empty :=
  ⟨argument.name, argument.value.bare, none⟩

def Rule.bare (rule : Rule π) : Rule Empty :=
  ⟨rule.kind, rule.attributes.map Attribute.bare, none⟩

def Declaration.bare (declaration : Declaration π) : Declaration Empty :=
  ⟨declaration.name, declaration.value.bare, none⟩

def Package.bare (package : Package π) : Package Empty :=
  ⟨package.defaultVisibility.map Value.bare, package.defaultDeprecation.map Value.bare,
    package.defaultTestonly.map Value.bare, package.features.map Value.bare, none⟩

def PackageGroup.bare (group : PackageGroup π) : PackageGroup Empty :=
  ⟨group.name.map Value.bare, group.packages.map Value.bare, group.includes.map Value.bare, none⟩

def ExportsFiles.bare (exports : ExportsFiles π) : ExportsFiles Empty :=
  ⟨exports.files.bare, exports.visibility.map ArrayOrName.bare, none⟩

def Statement.bare : Statement π → Statement Empty
  | .load node => .load node.bare
  | .rule node => .rule node.bare
  | .declaration node => .declaration node.bare
  | .package node => .package node.bare
  | .packageGroup node => .packageGroup node.bare
  | .exportsFiles node => .exportsFiles node.bare
  | .skipped => .skipped

def BuildFile.bare (file : BuildFile π) : BuildFile Empty :=
  ⟨file.loads.map Load.bare, file.rules.map Rule.bare, file.declarations.map Declaration.bare,
    file.package.map Package.bare, file.packageGroup.map PackageGroup.bare,
    file.exportsFiles.map ExportsFiles.bare⟩

/-! ## Moving places -/

section

variable (f : π → ρ)

@[simp]
theorem StringLiteral.bare_mapPosition (literal : StringLiteral π) :
    (literal.mapPosition f).bare = literal.bare :=
  rfl

@[simp]
theorem NumberLiteral.bare_mapPosition (literal : NumberLiteral π) :
    (literal.mapPosition f).bare = literal.bare :=
  rfl

@[simp]
theorem BooleanLiteral.bare_mapPosition (literal : BooleanLiteral π) :
    (literal.mapPosition f).bare = literal.bare :=
  rfl

@[simp]
theorem Identifier.bare_mapPosition (node : Identifier π) :
    (node.mapPosition f).bare = node.bare :=
  rfl

@[simp]
theorem Phrase.bare_mapPosition (phrase : Phrase π) :
    (phrase.mapPosition f).bare = phrase.bare := by
  cases phrase <;> rfl

@[simp]
theorem Element.bare_mapPosition (element : Element π) :
    (element.mapPosition f).bare = element.bare := by
  cases element <;> rfl

@[simp]
theorem ArrayLiteral.bare_mapPosition (array : ArrayLiteral π) :
    (array.mapPosition f).bare = array.bare := by
  simp [ArrayLiteral.bare, ArrayLiteral.mapPosition]

@[simp]
theorem ArrayOrName.bare_mapPosition (node : ArrayOrName π) :
    (node.mapPosition f).bare = node.bare := by
  cases node <;> simp [ArrayOrName.bare, ArrayOrName.mapPosition]

@[simp]
theorem Glob.bare_mapPosition (glob : Glob π) : (glob.mapPosition f).bare = glob.bare := by
  simp [Glob.bare, Glob.mapPosition, Function.comp_def]

theorem Value.mapEntryPositions_eq (entries : List (Entry π (Value π))) :
    Value.mapEntryPositions f entries =
      entries.map fun entry => ⟨entry.key.mapPosition f, entry.value.mapPosition f⟩ := by
  induction entries with
  | nil => rw [Value.mapEntryPositions, List.map_nil]
  | cons entry rest ih => rw [Value.mapEntryPositions, List.map_cons, ih]

theorem Value.bareEntries_mapPosition (entries : List (Entry π (Value π)))
    (each : ∀ entry ∈ entries, (entry.value.mapPosition f).bare = entry.value.bare) :
    Value.bareEntries (Value.mapEntryPositions f entries) = Value.bareEntries entries := by
  rw [Value.mapEntryPositions_eq, Value.bareEntries_eq, Value.bareEntries_eq, List.map_map]
  refine List.map_congr_left ?_
  intro entry member
  simp [Entry.bare, each entry member]

@[simp]
theorem Value.bare_mapPosition (value : Value π) : (value.mapPosition f).bare = value.bare := by
  induction value using Value.nestedInduction with
  | string literal => rfl
  | number literal => rfl
  | boolean literal => rfl
  | array node => simp [Value.mapPosition, Value.bare]
  | identifier node => rfl
  | glob node => simp [Value.mapPosition, Value.bare]
  | dict entries position each =>
    simp [Value.mapPosition, Value.bare, Value.bareEntries_mapPosition f entries each]
  | selectDict entries inner message position each =>
    simp [Value.mapPosition, Value.bare, Value.bareEntries_mapPosition f entries each,
      Function.comp_def]
  | selectName node message position =>
    simp [Value.mapPosition, Value.bare, Function.comp_def]

@[simp]
theorem LoadedSymbol.bare_mapPosition (symbol : LoadedSymbol π) :
    (symbol.mapPosition f).bare = symbol.bare := by
  cases symbol <;> rfl

@[simp]
theorem Load.bare_mapPosition (load : Load π) : (load.mapPosition f).bare = load.bare := by
  simp [Load.bare, Load.mapPosition]

@[simp]
theorem Attribute.bare_mapPosition (argument : Attribute π) :
    (argument.mapPosition f).bare = argument.bare := by
  simp [Attribute.bare, Attribute.mapPosition]

@[simp]
theorem Rule.bare_mapPosition (rule : Rule π) : (rule.mapPosition f).bare = rule.bare := by
  simp [Rule.bare, Rule.mapPosition]

@[simp]
theorem Declaration.bare_mapPosition (declaration : Declaration π) :
    (declaration.mapPosition f).bare = declaration.bare := by
  simp [Declaration.bare, Declaration.mapPosition]

@[simp]
theorem Package.bare_mapPosition (package : Package π) :
    (package.mapPosition f).bare = package.bare := by
  simp [Package.bare, Package.mapPosition, Function.comp_def]

@[simp]
theorem PackageGroup.bare_mapPosition (group : PackageGroup π) :
    (group.mapPosition f).bare = group.bare := by
  simp [PackageGroup.bare, PackageGroup.mapPosition, Function.comp_def]

@[simp]
theorem ExportsFiles.bare_mapPosition (exports : ExportsFiles π) :
    (exports.mapPosition f).bare = exports.bare := by
  simp [ExportsFiles.bare, ExportsFiles.mapPosition, Function.comp_def]

theorem BuildFile.bare_mapPosition (file : BuildFile π) :
    (file.mapPosition f).bare = file.bare := by
  simp [BuildFile.bare, BuildFile.mapPosition, Function.comp_def]

end

end BuildLang
