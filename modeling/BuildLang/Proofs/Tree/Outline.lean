import BuildLang.Proofs.Tree.Moving
import Mathlib.Data.List.Basic

/-!
# Outlines

A tree seen as nodes alone: what each begins with, where it stands, and which nodes
lie in it.  Nodes that the tree keeps in one list form a group, so that it makes sense
to ask whether they come in the order of the source; package arguments are kept by name
and are groups of their own.  The file itself and the entries of a dict are no nodes.
-/

set_option autoImplicit false

namespace BuildLang

/-- What a node begins with: a certain token, or a string for which only the text
between its quotes is kept. -/
inductive Lead where
  | token (lexeme : Token)
  | symbol (value : String)

namespace Lead

def Matches : Lead → Token → Prop
  | .token expected, lexeme => lexeme = expected
  | .symbol value, .string raw => unquoted raw = value
  | .symbol _, _ => False

def text : Lead → String
  | .token lexeme => lexeme.text
  | .symbol value => quoted value

end Lead

inductive Outline (π : Type) where
  | node (lead : Lead) (position : Option π) (groups : List (List (Outline π)))

variable {π ρ : Type}

namespace Outline

def position : Outline π → Option π
  | .node _ position _ => position

mutual

def map (f : π → ρ) : Outline π → Outline ρ
  | .node lead position groups => .node lead (position.map f) (mapGroups f groups)

def mapGroups (f : π → ρ) : List (List (Outline π)) → List (List (Outline ρ))
  | [] => []
  | group :: rest => mapGroup f group :: mapGroups f rest

def mapGroup (f : π → ρ) : List (Outline π) → List (Outline ρ)
  | [] => []
  | child :: rest => map f child :: mapGroup f rest

end

theorem mapGroup_eq (f : π → ρ) (group : List (Outline π)) :
    mapGroup f group = group.map (map f) := by
  induction group with
  | nil => rw [mapGroup, List.map_nil]
  | cons child rest ih => rw [mapGroup, ih, List.map_cons]

@[simp]
theorem map_node (f : π → ρ) (lead : Lead) (position : Option π)
    (groups : List (List (Outline π))) :
    (node lead position groups).map f =
      node lead (position.map f) (groups.map (List.map (map f))) := by
  rw [map]
  congr 1
  induction groups with
  | nil => rw [mapGroups, List.map_nil]
  | cons group rest ih => rw [mapGroups, mapGroup_eq, ih, List.map_cons]

@[simp]
theorem position_map (f : π → ρ) (outline : Outline π) :
    (outline.map f).position = outline.position.map f := by
  cases outline
  rw [map_node]
  rfl

end Outline

/-! ## Values -/

def StringLiteral.outline (literal : StringLiteral π) : Outline π :=
  .node (.token (.string literal.raw)) literal.position []

def NumberLiteral.outline (literal : NumberLiteral π) : Outline π :=
  .node (.token (.number literal.raw)) literal.position []

def BooleanLiteral.outline (literal : BooleanLiteral π) : Outline π :=
  .node (.token (.boolean literal.value)) literal.position []

def Identifier.outline (node : Identifier π) : Outline π :=
  .node (.token (.identifier node.name)) node.position []

def Phrase.outline : Phrase π → Outline π
  | .string literal => literal.outline
  | .identifier node => node.outline

def Element.outline : Element π → Outline π
  | .string literal => literal.outline
  | .number literal => literal.outline
  | .boolean literal => literal.outline
  | .identifier node => node.outline

def ArrayLiteral.outline (node : ArrayLiteral π) : Outline π :=
  .node (.token .leftBracket) node.position [node.elements.map Element.outline]

def ArrayOrName.outline : ArrayOrName π → Outline π
  | .array node => node.outline
  | .identifier node => node.outline

/-- Each list of patterns is a group, whichever of them stands first. -/
def Glob.outline (node : Glob π) : Outline π :=
  .node (.token .glob) node.position
    [(node.includes.getD []).map Phrase.outline, (node.excludes.getD []).map Phrase.outline]

namespace Value

mutual

def outline : Value π → Outline π
  | .string literal => literal.outline
  | .number literal => literal.outline
  | .boolean literal => literal.outline
  | .array node => node.outline
  | .identifier node => node.outline
  | .glob node => node.outline
  | .dict ⟨entries, position⟩ => .node (.token .leftBrace) position [entryOutlines entries]
  | .select ⟨.dict ⟨entries, inner⟩, message, position⟩ =>
      .node (.token (.identifier "select")) position
        [.node (.token .leftBrace) inner [entryOutlines entries] ::
          (message.map Phrase.outline).toList]
  | .select ⟨.identifier node, message, position⟩ =>
      .node (.token (.identifier "select")) position
        [node.outline :: (message.map Phrase.outline).toList]

/-- Keys and values by turns. -/
def entryOutlines : List (Entry π (Value π)) → List (Outline π)
  | [] => []
  | ⟨key, value⟩ :: rest => key.outline :: outline value :: entryOutlines rest

end

end Value

def Entry.outlines (entry : Entry π (Value π)) : List (Outline π) :=
  [entry.key.outline, entry.value.outline]

def Dict.outline (node : Dict π (Value π)) : Outline π :=
  .node (.token .leftBrace) node.position [node.entries.flatMap Entry.outlines]

def Constraint.outline : Constraint π (Value π) → Outline π
  | .dict node => node.outline
  | .identifier node => node.outline

/-- The constraint, then the message. -/
def Select.outline (node : Select π (Value π)) : Outline π :=
  .node (.token (.identifier "select")) node.position
    [node.constraint.outline :: (node.noMatchError.map Phrase.outline).toList]

theorem Value.entryOutlines_eq (entries : List (Entry π (Value π))) :
    Value.entryOutlines entries = entries.flatMap Entry.outlines := by
  induction entries with
  | nil => rw [Value.entryOutlines, List.flatMap_nil]
  | cons entry rest ih =>
    rw [Value.entryOutlines, ih, List.flatMap_cons]
    rfl

theorem Value.outline_dict (node : Dict π (Value π)) :
    (Value.dict node).outline = node.outline := by
  rw [Value.outline, Value.entryOutlines_eq]
  rfl

theorem Value.outline_select (node : Select π (Value π)) :
    (Value.select node).outline = node.outline := by
  obtain ⟨constraint, message, position⟩ := node
  cases constraint with
  | dict node =>
    rw [Value.outline, Value.entryOutlines_eq]
    rfl
  | identifier node => rw [Value.outline]; rfl

/-! ## Statements -/

def LoadedSymbol.outline : LoadedSymbol π → Outline π
  | .plain symbol position => .node (.symbol symbol) position []
  | .renamed name _ position => .node (.token (.identifier name)) position []

def Load.outline (node : Load π) : Outline π :=
  .node (.token .load) node.position [node.symbols.map LoadedSymbol.outline]

def Attribute.outline (node : Attribute π) : Outline π :=
  .node (.token (.identifier node.name)) node.position [[node.value.outline]]

def Rule.outline (node : Rule π) : Outline π :=
  .node (.token (.identifier node.kind)) node.position [node.attributes.map Attribute.outline]

def Declaration.outline (node : Declaration π) : Outline π :=
  .node (.token (.identifier node.name)) node.position [[node.value.outline]]

def Package.outline (node : Package π) : Outline π :=
  .node (.token (.identifier "package")) node.position
    (node.entries.map fun argument => [argument.value.outline])

def PackageGroup.outline (node : PackageGroup π) : Outline π :=
  .node (.token (.identifier "package_group")) node.position
    (node.entries.map fun argument => [argument.value.outline])

/-- The files, then the visibility. -/
def ExportsFiles.outline (node : ExportsFiles π) : Outline π :=
  .node (.token (.identifier "exports_files")) node.position
    [node.files.outline :: (node.visibility.map ArrayOrName.outline).toList]

def Statement.outlines : Statement π → List (Outline π)
  | .load node => [node.outline]
  | .rule node => [node.outline]
  | .declaration node => [node.outline]
  | .package node => [node.outline]
  | .packageGroup node => [node.outline]
  | .exportsFiles node => [node.outline]
  | .skipped => []

/-- The loads, the rules and the declarations, and each call that stands alone. -/
def BuildFile.outlines (file : BuildFile π) : List (List (Outline π)) :=
  [file.loads.map Load.outline, file.rules.map Rule.outline,
    file.declarations.map Declaration.outline, (file.package.map Package.outline).toList,
    (file.packageGroup.map PackageGroup.outline).toList,
    (file.exportsFiles.map ExportsFiles.outline).toList]

/-! ## Outlines and places -/

section

variable (f : π → ρ)

@[simp]
theorem Phrase.outline_mapPosition (phrase : Phrase π) :
    (phrase.mapPosition f).outline = phrase.outline.map f := by
  cases phrase <;>
    simp [Phrase.mapPosition, Phrase.outline, StringLiteral.outline, StringLiteral.mapPosition,
      Identifier.outline, Identifier.mapPosition]

@[simp]
theorem Element.outline_mapPosition (element : Element π) :
    (element.mapPosition f).outline = element.outline.map f := by
  cases element <;>
    simp [Element.mapPosition, Element.outline, StringLiteral.outline, StringLiteral.mapPosition,
      NumberLiteral.outline, NumberLiteral.mapPosition, BooleanLiteral.outline,
      BooleanLiteral.mapPosition, Identifier.outline, Identifier.mapPosition]

@[simp]
theorem ArrayLiteral.outline_mapPosition (node : ArrayLiteral π) :
    (node.mapPosition f).outline = node.outline.map f := by
  simp [ArrayLiteral.mapPosition, ArrayLiteral.outline, Function.comp_def]

@[simp]
theorem ArrayOrName.outline_mapPosition (node : ArrayOrName π) :
    (node.mapPosition f).outline = node.outline.map f := by
  cases node <;>
    simp [ArrayOrName.mapPosition, ArrayOrName.outline, Identifier.outline,
      Identifier.mapPosition]

@[simp]
theorem Glob.outline_mapPosition (node : Glob π) :
    (node.mapPosition f).outline = node.outline.map f := by
  obtain ⟨includes, excludes, position⟩ := node
  cases includes <;> cases excludes <;>
    simp [Glob.mapPosition, Glob.outline, Function.comp_def]

theorem entryOutlines_mapPosition (entries : List (Entry π (Value π)))
    (inner : ∀ entry ∈ entries, (entry.value.mapPosition f).outline = entry.value.outline.map f) :
    (entries.map (Entry.mapPosition f)).flatMap Entry.outlines =
      (entries.flatMap Entry.outlines).map (Outline.map f) := by
  rw [List.flatMap_map, List.map_flatMap]
  apply List.flatMap_congr
  intro entry member
  simp [Entry.outlines, Entry.mapPosition, inner entry member, StringLiteral.outline,
    StringLiteral.mapPosition]

@[simp]
theorem Value.outline_mapPosition (value : Value π) :
    (value.mapPosition f).outline = value.outline.map f := by
  induction value using Value.nestedInduction with
  | string literal =>
    simp [Value.mapPosition, Value.outline, StringLiteral.outline, StringLiteral.mapPosition]
  | number literal =>
    simp [Value.mapPosition, Value.outline, NumberLiteral.outline, NumberLiteral.mapPosition]
  | boolean literal =>
    simp [Value.mapPosition, Value.outline, BooleanLiteral.outline, BooleanLiteral.mapPosition]
  | array node => simp [Value.mapPosition, Value.outline]
  | identifier node =>
    simp [Value.mapPosition, Value.outline, Identifier.outline, Identifier.mapPosition]
  | glob node => simp [Value.mapPosition, Value.outline]
  | dict entries position inner =>
    rw [Value.mapPosition_dict, Value.outline_dict, Value.outline_dict]
    simp [Dict.mapPosition, Dict.outline, entryOutlines_mapPosition f entries inner]
  | selectDict entries place message position inner =>
    rw [Value.mapPosition_select, Value.outline_select, Value.outline_select]
    simp [Select.mapPosition, Select.outline, Constraint.mapPosition, Constraint.outline,
      Dict.mapPosition, Dict.outline, entryOutlines_mapPosition f entries inner,
      Function.comp_def, Option.toList_map]
  | selectName node message position =>
    rw [Value.mapPosition_select, Value.outline_select, Value.outline_select]
    simp [Select.mapPosition, Select.outline, Constraint.mapPosition, Constraint.outline,
      Identifier.mapPosition, Identifier.outline, Function.comp_def, Option.toList_map]

@[simp]
theorem LoadedSymbol.outline_mapPosition (node : LoadedSymbol π) :
    (node.mapPosition f).outline = node.outline.map f := by
  cases node <;> simp [LoadedSymbol.mapPosition, LoadedSymbol.outline]

@[simp]
theorem Load.outline_mapPosition (node : Load π) :
    (node.mapPosition f).outline = node.outline.map f := by
  simp [Load.mapPosition, Load.outline, Function.comp_def]

@[simp]
theorem Attribute.outline_mapPosition (node : Attribute π) :
    (node.mapPosition f).outline = node.outline.map f := by
  simp [Attribute.mapPosition, Attribute.outline]

@[simp]
theorem Rule.outline_mapPosition (node : Rule π) :
    (node.mapPosition f).outline = node.outline.map f := by
  simp [Rule.mapPosition, Rule.outline, Function.comp_def]

@[simp]
theorem Declaration.outline_mapPosition (node : Declaration π) :
    (node.mapPosition f).outline = node.outline.map f := by
  simp [Declaration.mapPosition, Declaration.outline]

@[simp]
theorem Package.outline_mapPosition (node : Package π) :
    (node.mapPosition f).outline = node.outline.map f := by
  have entries : (node.mapPosition f).entries = node.entries.map (Argument.mapPosition f) :=
    (Package.mapPosition_carries f).entries node
  simp [Package.outline, entries, Argument.mapPosition, Function.comp_def]
  rfl

@[simp]
theorem PackageGroup.outline_mapPosition (node : PackageGroup π) :
    (node.mapPosition f).outline = node.outline.map f := by
  have entries : (node.mapPosition f).entries = node.entries.map (Argument.mapPosition f) :=
    (PackageGroup.mapPosition_carries f).entries node
  simp [PackageGroup.outline, entries, Argument.mapPosition, Function.comp_def]
  rfl

@[simp]
theorem ExportsFiles.outline_mapPosition (node : ExportsFiles π) :
    (node.mapPosition f).outline = node.outline.map f := by
  simp [ExportsFiles.mapPosition, ExportsFiles.outline, Function.comp_def, Option.toList_map]

theorem BuildFile.outlines_mapPosition (file : BuildFile π) :
    (file.mapPosition f).outlines = file.outlines.map (List.map (Outline.map f)) := by
  simp [BuildFile.mapPosition, BuildFile.outlines, Function.comp_def, Option.toList_map]

end

end BuildLang
