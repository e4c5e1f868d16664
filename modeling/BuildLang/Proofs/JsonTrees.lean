import BuildLang.Json.Tree
import BuildLang.Proofs.Tree.Bare
import Mathlib.Data.List.Forall2
import Mathlib.Data.Option.Basic

/-!
# Trees from their documents

The document of a tree loses nothing.  Two documents count as the same here if they hold
the same things whatever the order of their fields, and even then they are those of one
tree.  A choice between nodes is written without a mark of its own, so it is the kind in
front of each node that tells the choices apart; a part that is missing is known from a
field that is missing.
-/

set_option autoImplicit false

namespace BuildLang

/-! ## Documents without an order of fields -/

namespace Json

/-- The documents hold the same things.  The order of fields does not count, and decimals
are not told apart at all, however they would be compared. -/
inductive Same : Json → Json → Prop where
  | null : Same .null .null
  | boolean (value : Bool) : Same (.boolean value) (.boolean value)
  | natural (value : Nat) : Same (.natural value) (.natural value)
  | decimal (text other : String) : Same (.decimal text) (.decimal other)
  | string (text : String) : Same (.string text) (.string text)
  | array (items others : List Json) (each : List.Forall₂ Same items others) :
      Same (.array items) (.array others)
  | object (fields others : List (String × Json))
      (each : ∀ name, Option.Rel Same (fields.lookup name) (others.lookup name)) :
      Same (.object fields) (.object others)

/-- What stands in a field of a document. -/
def field? (json : Json) (name : String) : Option Json :=
  match json with
  | .object fields => fields.lookup name
  | _ => none

theorem same_string (text other : String) : Same (.string text) (.string other) ↔ text = other := by
  constructor
  · intro same
    cases same
    rfl
  · rintro rfl
    exact .string text

theorem same_natural (value other : Nat) :
    Same (.natural value) (.natural other) ↔ value = other := by
  constructor
  · intro same
    cases same
    rfl
  · rintro rfl
    exact .natural value

theorem same_boolean (value other : Bool) :
    Same (.boolean value) (.boolean other) ↔ value = other := by
  constructor
  · intro same
    cases same
    rfl
  · rintro rfl
    exact .boolean value

mutual

theorem Same.refl : ∀ json : Json, Same json json
  | .null => .null
  | .boolean value => .boolean value
  | .natural value => .natural value
  | .decimal text => .decimal text text
  | .string text => .string text
  | .array items => .array items items (Same.refl_items items)
  | .object fields => .object fields fields (Same.refl_fields fields)

theorem Same.refl_items : ∀ items : List Json, List.Forall₂ Same items items
  | [] => .nil
  | item :: rest => .cons (Same.refl item) (Same.refl_items rest)

theorem Same.refl_fields : ∀ (fields : List (String × Json)) (name : String),
    Option.Rel Same (fields.lookup name) (fields.lookup name)
  | [], _ => .none
  | (key, value) :: rest, name => by
      rw [List.lookup_cons]
      split
      · exact .some (Same.refl value)
      · exact Same.refl_fields rest name

end

theorem Same.field {json other : Json} (same : Same json other) (name : String) :
    Option.Rel Same (json.field? name) (other.field? name) := by
  cases same with
  | object fields others each => exact each name
  | _ => exact .none

/-! ## Fields of nodes -/

@[simp]
theorem lookup_field (name key : String) (value : Json) (rest : List (String × Json)) :
    ((key, value) :: rest).lookup name = if name = key then some value else rest.lookup name := by
  by_cases same : name = key
  · simp [same]
  · have differs : (name == key) = false := by simpa using same
    simp [List.lookup_cons, same, differs]

@[simp]
theorem lookup_optionalField {α : Type} (name key : String) (encode : α → Json)
    (part : Option α) :
    (optionalField name encode part).lookup key = if key = name then part.map encode else none := by
  cases part <;> simp [optionalField]

theorem field?_node (kind : NodeKind) (fields : List (String × Json))
    (position : Option Position) (name : String) :
    (node kind fields position).field? name =
      if name = "type" then some (.string kind.name)
      else (fields.lookup name).or
        (if name = "position" then position.map Position.toJson else none) := by
  simp [field?, node, List.lookup_append]

end Json

namespace NodeKind

def all : List NodeKind :=
  [.stringLiteral, .numberLiteral, .boolean, .identifier, .array, .dict, .dictEntry, .glob,
    .select, .plainSymbol, .renamedSymbol, .load, .ruleAttribute, .rule, .declaration, .package,
    .packageGroup, .exportsFiles, .buildFile]

def ofName? (name : String) : Option NodeKind :=
  all.find? fun kind => kind.name = name

theorem ofName?_name (kind : NodeKind) : ofName? kind.name = some kind := by
  cases kind <;> rfl

theorem name_injective (kind other : NodeKind) (same : kind.name = other.name) :
    kind = other := by
  have found := congrArg ofName? same
  rwa [ofName?_name, ofName?_name, Option.some.injEq] at found

end NodeKind

namespace Json

variable {kind sort : NodeKind} {fields others : List (String × Json)}
  {position place : Option Position}

/-- Nodes with the same document are of one kind. -/
theorem Same.kinds (same : Same (node kind fields position) (node sort others place)) :
    kind = sort := by
  have tags := same.field "type"
  rw [field?_node, field?_node, if_pos rfl, if_pos rfl, Option.rel_some_some, same_string] at tags
  exact NodeKind.name_injective kind sort tags

/-- Nodes with the same document agree in each of their own fields. -/
theorem Same.part (same : Same (node kind fields position) (node sort others place))
    (name : String) (own : name ≠ "type" ∧ name ≠ "position") :
    Option.Rel Same (fields.lookup name) (others.lookup name) := by
  have parts := same.field name
  simpa [field?_node, own.1, own.2] using parts

/-- A field that is a text in both is the same text. -/
theorem Same.text (same : Same (node kind fields position) (node sort others place))
    (name : String) (own : name ≠ "type" ∧ name ≠ "position") {text other : String}
    (here : fields.lookup name = some (.string text))
    (there : others.lookup name = some (.string other)) : text = other := by
  have parts := same.part name own
  rwa [here, there, Option.rel_some_some, same_string] at parts

/-- The document of `part` is that of no other part. -/
def Tells {α : Type} (encode : α → Json) (part : α) : Prop :=
  ∀ other, Same (encode part) (encode other) → part = other

variable {α : Type} {encode : α → Json}

theorem tells_option (part other : Option α) (tells : ∀ given ∈ part, Tells encode given)
    (same : Option.Rel Same (part.map encode) (other.map encode)) : part = other := by
  cases part with
  | none =>
    cases other with
    | none => rfl
    | some value => cases same
  | some given =>
    cases other with
    | none => cases same
    | some value => rw [tells given rfl value (Option.rel_some_some.mp same)]

theorem tells_list (parts : List α) (tells : ∀ part ∈ parts, Tells encode part) :
    Tells (fun parts : List α => .array (parts.map encode)) parts := by
  intro others same
  cases same with
  | array _ _ each =>
    induction parts generalizing others with
    | nil =>
      cases others with
      | nil => rfl
      | cons other further => cases each
    | cons part parts ih =>
      cases others with
      | nil => cases each
      | cons other further =>
        obtain ⟨first, later⟩ := List.forall₂_cons.mp each
        obtain ⟨known, rest⟩ := List.forall_mem_cons.mp tells
        rw [known other first, ih rest further later]

end Json

open Json (Same Tells)

theorem Position.tells (place : Position) : Tells Position.toJson place := by
  obtain ⟨line, column, offset⟩ := place
  rintro ⟨row, mark, byte⟩ same
  have lines : line = row := by
    simpa [Position.toJson, Json.field?, Json.same_natural] using same.field "line"
  have columns : column = mark := by
    simpa [Position.toJson, Json.field?, Json.same_natural] using same.field "column"
  have offsets : offset = byte := by
    simpa [Position.toJson, Json.field?, Json.same_natural] using same.field "offset"
  rw [lines, columns, offsets]

/-- Nodes with the same document have one place. -/
theorem Json.Same.places {kind sort : NodeKind} {fields others : List (String × Json)}
    {position place : Option Position}
    (same : Same (Json.node kind fields position) (Json.node sort others place))
    (free : fields.lookup "position" = none) (clear : others.lookup "position" = none) :
    position = place := by
  have parts := same.field "position"
  refine tells_option position place (fun given _ => given.tells) ?_
  simpa [field?_node, free, clear] using parts

/-! ## Literals and names -/

theorem StringLiteral.tells (literal : StringLiteral Position) : Tells toJson literal := by
  obtain ⟨raw, position⟩ := literal
  rintro ⟨text, place⟩ same
  have raws : raw = text := same.text "raw" (by decide) rfl rfl
  have places : position = place := same.places (by simp) (by simp)
  rw [raws, places]

theorem NumberLiteral.tells (literal : NumberLiteral Position) : Tells toJson literal := by
  obtain ⟨raw, position⟩ := literal
  rintro ⟨text, place⟩ same
  have raws : raw = text := same.text "raw" (by decide) rfl rfl
  have places : position = place := same.places (by simp) (by simp)
  rw [raws, places]

theorem BooleanLiteral.tells (literal : BooleanLiteral Position) : Tells toJson literal := by
  obtain ⟨value, position⟩ := literal
  rintro ⟨truth, place⟩ same
  have values : value = truth := by simpa [Json.same_boolean] using same.part "value" (by decide)
  have places : position = place := same.places (by simp) (by simp)
  rw [values, places]

theorem Identifier.tells (node : Identifier Position) : Tells toJson node := by
  obtain ⟨name, position⟩ := node
  rintro ⟨other, place⟩ same
  have names : name = other := same.text "value" (by decide) rfl rfl
  have places : position = place := same.places (by simp) (by simp)
  rw [names, places]

theorem Phrase.tells (phrase : Phrase Position) : Tells toJson phrase := by
  intro other same
  cases phrase with
  | string literal =>
    cases other with
    | string found => rw [literal.tells found same]
    | identifier found => exact absurd same.kinds (by decide)
  | identifier node =>
    cases other with
    | string found => exact absurd same.kinds (by decide)
    | identifier found => rw [node.tells found same]

theorem Element.tells (element : Element Position) : Tells toJson element := by
  intro other same
  cases element with
  | string literal =>
    cases other with
    | string found => rw [literal.tells found same]
    | _ => exact absurd same.kinds (by decide)
  | number literal =>
    cases other with
    | number found => rw [literal.tells found same]
    | _ => exact absurd same.kinds (by decide)
  | boolean literal =>
    cases other with
    | boolean found => rw [literal.tells found same]
    | _ => exact absurd same.kinds (by decide)
  | identifier node =>
    cases other with
    | identifier found => rw [node.tells found same]
    | _ => exact absurd same.kinds (by decide)

theorem ArrayLiteral.tells (array : ArrayLiteral Position) : Tells toJson array := by
  obtain ⟨elements, position⟩ := array
  rintro ⟨items, place⟩ same
  have parts : Same (.array (elements.map Element.toJson)) (.array (items.map Element.toJson)) := by
    simpa using same.part "values" (by decide)
  have values := Json.tells_list elements (fun element _ => element.tells) items parts
  have places : position = place := same.places (by simp) (by simp)
  rw [values, places]

theorem ArrayOrName.tells (node : ArrayOrName Position) : Tells toJson node := by
  intro other same
  cases node with
  | array node =>
    cases other with
    | array found => rw [node.tells found same]
    | identifier found => exact absurd same.kinds (by decide)
  | identifier node =>
    cases other with
    | array found => exact absurd same.kinds (by decide)
    | identifier found => rw [node.tells found same]

theorem Glob.tells (glob : Glob Position) : Tells toJson glob := by
  obtain ⟨includes, excludes, position⟩ := glob
  rintro ⟨given, barred, place⟩ same
  have listed (patterns : List (Phrase Position)) : Tells patternsToJson patterns :=
    Json.tells_list patterns fun pattern _ => pattern.tells
  have takes : includes = given := by
    refine Json.tells_option _ _ (fun patterns _ => listed patterns) ?_
    simpa [Json.lookup_optionalField, List.lookup_append] using same.part "includes" (by decide)
  have leaves : excludes = barred := by
    refine Json.tells_option _ _ (fun patterns _ => listed patterns) ?_
    simpa [Json.lookup_optionalField, List.lookup_append] using same.part "excludes" (by decide)
  have places : position = place :=
    same.places (by simp [List.lookup_append]) (by simp [List.lookup_append])
  rw [takes, leaves, places]

/-! ## Values -/

/-- The object of an entry, over values that have documents. -/
def Entry.toJson (entry : Entry Position (Value Position)) : Json :=
  Json.node .dictEntry [("key", entry.key.toJson), ("value", entry.value.toJson)] none

theorem Value.entriesToJson_eq (entries : List (Entry Position (Value Position))) :
    entriesToJson entries = entries.map Entry.toJson := by
  induction entries with
  | nil => rfl
  | cons entry rest ih =>
    obtain ⟨key, value⟩ := entry
    rw [entriesToJson, ih]
    rfl

theorem Entry.tells (entry : Entry Position (Value Position))
    (value : Tells Value.toJson entry.value) : Tells toJson entry := by
  obtain ⟨key, part⟩ := entry
  rintro ⟨name, other⟩ same
  have keys : key = name := by
    refine key.tells name ?_
    simpa using same.part "key" (by decide)
  have values : part = other := by
    refine value other ?_
    simpa using same.part "value" (by decide)
  rw [keys, values]

namespace Dict

def toJson (node : Dict Position (Value Position)) : Json :=
  Value.dictToJson (node.entries.map Entry.toJson) node.position

theorem tells (node : Dict Position (Value Position))
    (each : ∀ entry ∈ node.entries, Tells Value.toJson (Entry.value entry)) :
    Tells toJson node := by
  obtain ⟨entries, position⟩ := node
  rintro ⟨others, place⟩ same
  have parts : Same (.array (entries.map Entry.toJson)) (.array (others.map Entry.toJson)) := by
    simpa using same.part "values" (by decide)
  have values := Json.tells_list entries (fun entry member => entry.tells (each entry member))
    others parts
  have places : position = place := same.places (by simp) (by simp)
  rw [values, places]

end Dict

def Constraint.toJson : Constraint Position (Value Position) → Json
  | .dict node => node.toJson
  | .identifier node => node.toJson

def Constraint.values : Constraint Position (Value Position) → List (Value Position)
  | .dict node => node.entries.map Entry.value
  | .identifier _ => []

theorem Constraint.tells (constraint : Constraint Position (Value Position))
    (each : ∀ value ∈ constraint.values, Tells Value.toJson value) : Tells toJson constraint := by
  intro other same
  cases constraint with
  | dict node =>
    cases other with
    | dict found => rw [node.tells (List.forall_mem_map.mp each) found same]
    | identifier found => exact absurd same.kinds (by decide)
  | identifier node =>
    cases other with
    | dict found => exact absurd same.kinds (by decide)
    | identifier found => rw [node.tells found same]

namespace Select

def toJson (node : Select Position (Value Position)) : Json :=
  Value.selectToJson node.constraint.toJson node.noMatchError node.position

theorem tells (node : Select Position (Value Position))
    (each : ∀ value ∈ node.constraint.values, Tells Value.toJson value) : Tells toJson node := by
  obtain ⟨constraint, message, position⟩ := node
  rintro ⟨other, phrase, place⟩ same
  have constraints : constraint = other := by
    refine constraint.tells each other ?_
    simpa using same.part "constraint" (by decide)
  have messages : message = phrase := by
    refine Json.tells_option _ _ (fun given _ => given.tells) ?_
    simpa using same.part "noMatchErrorNode" (by decide)
  have places : position = place := same.places (by simp) (by simp)
  rw [constraints, messages, places]

end Select

namespace Value

theorem toJson_dict (node : Dict Position (Value Position)) :
    (Value.dict node).toJson = node.toJson := by
  rw [toJson, Dict.toJson, entriesToJson_eq]

theorem toJson_select (node : Select Position (Value Position)) :
    (Value.select node).toJson = node.toJson := by
  obtain ⟨constraint, message, position⟩ := node
  cases constraint with
  | dict inner => rw [toJson, Select.toJson, entriesToJson_eq]; rfl
  | identifier name => rw [toJson, Select.toJson]; rfl

/-- The kind that a value has is the one its document begins with. -/
theorem toJson_kind (value : Value Position) :
    value.toJson.field? "type" = some (.string value.kind.name) := by
  cases value with
  | dict node => rw [toJson_dict]; rfl
  | select node => rw [toJson_select]; rfl
  | _ => rw [toJson]; rfl

theorem kinds_of_same (value other : Value Position) (same : Same value.toJson other.toJson) :
    value.kind = other.kind := by
  have tags := same.field "type"
  rw [toJson_kind, toJson_kind, Option.rel_some_some, Json.same_string] at tags
  exact NodeKind.name_injective _ _ tags

/-- The values of a kind are made in one way. -/
def OfKind : NodeKind → Value Position → Prop
  | .stringLiteral, value => ∃ node, value = .string node
  | .numberLiteral, value => ∃ node, value = .number node
  | .boolean, value => ∃ node, value = .boolean node
  | .identifier, value => ∃ node, value = .identifier node
  | .array, value => ∃ node, value = .array node
  | .dict, value => ∃ node, value = .dict node
  | .glob, value => ∃ node, value = .glob node
  | .select, value => ∃ node, value = .select node
  | _, _ => False

theorem ofKind_kind (value : Value Position) : OfKind value.kind value := by
  cases value <;> exact ⟨_, rfl⟩

/-- A value is told by its document if the node in it is: the kind in front of the document
leaves no other way to have made the value. -/
theorem tells_made {α : Type} {make : α → Value Position} {encode : α → Json}
    (document : ∀ node, (make node).toJson = encode node)
    (sole : ∀ node other, OfKind (make node).kind other → ∃ found, other = make found) {node : α}
    (tells : Tells encode node) : Tells toJson (make node) := by
  intro other same
  have kinds := kinds_of_same _ other same
  obtain ⟨found, rfl⟩ := sole node other (kinds ▸ ofKind_kind other)
  rw [document, document] at same
  rw [tells found same]

theorem tells (value : Value Position) : Tells toJson value := by
  induction value using Value.nestedInduction with
  | string literal => exact tells_made (fun _ => by rw [toJson]) (fun _ _ => id) literal.tells
  | number literal => exact tells_made (fun _ => by rw [toJson]) (fun _ _ => id) literal.tells
  | boolean literal => exact tells_made (fun _ => by rw [toJson]) (fun _ _ => id) literal.tells
  | array node => exact tells_made (fun _ => by rw [toJson]) (fun _ _ => id) node.tells
  | identifier node => exact tells_made (fun _ => by rw [toJson]) (fun _ _ => id) node.tells
  | glob node => exact tells_made (fun _ => by rw [toJson]) (fun _ _ => id) node.tells
  | dict entries position each =>
    exact tells_made toJson_dict (fun _ _ => id) (Dict.tells ⟨entries, position⟩ each)
  | selectDict entries inner message position each =>
    exact tells_made toJson_select (fun _ _ => id)
      (Select.tells ⟨.dict ⟨entries, inner⟩, message, position⟩ (List.forall_mem_map.mpr each))
  | selectName node message position =>
    exact tells_made toJson_select (fun _ _ => id)
      (Select.tells ⟨.identifier node, message, position⟩ (by simp [Constraint.values]))

end Value

/-! ## Statements -/

theorem LoadedSymbol.tells (symbol : LoadedSymbol Position) : Tells toJson symbol := by
  intro other same
  cases symbol with
  | plain name position =>
    cases other with
    | plain text place =>
      have names : name = text := same.text "symbol" (by decide) rfl rfl
      have places : position = place := same.places (by simp) (by simp)
      rw [names, places]
    | renamed _ _ _ => exact absurd same.kinds (by decide)
  | renamed bound name position =>
    cases other with
    | plain _ _ => exact absurd same.kinds (by decide)
    | renamed given text place =>
      have bounds : bound = given := same.text "identifier" (by decide) rfl rfl
      have names : name = text := same.text "symbol" (by decide) rfl rfl
      have places : position = place := same.places (by simp) (by simp)
      rw [bounds, names, places]

theorem Load.tells (load : Load Position) : Tells toJson load := by
  obtain ⟨source, symbols, position⟩ := load
  rintro ⟨label, others, place⟩ same
  have labels : source = label := same.text "from" (by decide) rfl rfl
  have parts : Same (.array (symbols.map LoadedSymbol.toJson))
      (.array (others.map LoadedSymbol.toJson)) := by
    simpa using same.part "symbols" (by decide)
  have listed := Json.tells_list symbols (fun symbol _ => symbol.tells) others parts
  have places : position = place := same.places (by simp) (by simp)
  rw [labels, listed, places]

theorem Attribute.tells (argument : Attribute Position) : Tells toJson argument := by
  obtain ⟨name, value, position⟩ := argument
  rintro ⟨other, part, place⟩ same
  have names : name = other := same.text "identifier" (by decide) rfl rfl
  have values : value = part := by
    refine value.tells part ?_
    simpa using same.part "value" (by decide)
  have places : position = place := same.places (by simp) (by simp)
  rw [names, values, places]

theorem Rule.tells (rule : Rule Position) : Tells toJson rule := by
  obtain ⟨kind, attributes, position⟩ := rule
  rintro ⟨name, others, place⟩ same
  have kinds : kind = name := same.text "kind" (by decide) rfl rfl
  have parts : Same (.array (attributes.map Attribute.toJson))
      (.array (others.map Attribute.toJson)) := by
    simpa using same.part "attributes" (by decide)
  have listed := Json.tells_list attributes (fun argument _ => argument.tells) others parts
  have places : position = place := same.places (by simp) (by simp)
  rw [kinds, listed, places]

theorem Declaration.tells (declaration : Declaration Position) : Tells toJson declaration := by
  obtain ⟨name, value, position⟩ := declaration
  rintro ⟨other, part, place⟩ same
  have names : name = other := same.text "identifier" (by decide) rfl rfl
  have values : value = part := by
    refine value.tells part ?_
    simpa using same.part "initializer" (by decide)
  have places : position = place := same.places (by simp) (by simp)
  rw [names, values, places]

theorem Value.tells_slot (part other : Option (Value Position))
    (same : Option.Rel Same (part.map toJson) (other.map toJson)) : part = other :=
  Json.tells_option part other (fun value _ => value.tells) same

theorem Package.tells (package : Package Position) : Tells toJson package := by
  obtain ⟨visibility, deprecation, testonly, features, position⟩ := package
  rintro ⟨seen, late, tested, traits, place⟩ same
  have first : visibility = seen := by
    refine Value.tells_slot _ _ ?_
    simpa [List.lookup_append] using same.part "defaultVisibility" (by decide)
  have second : deprecation = late := by
    refine Value.tells_slot _ _ ?_
    simpa [List.lookup_append] using same.part "defaultDeprecation" (by decide)
  have third : testonly = tested := by
    refine Value.tells_slot _ _ ?_
    simpa [List.lookup_append] using same.part "defaultTestonly" (by decide)
  have fourth : features = traits := by
    refine Value.tells_slot _ _ ?_
    simpa [List.lookup_append] using same.part "features" (by decide)
  have places : position = place :=
    same.places (by simp [List.lookup_append]) (by simp [List.lookup_append])
  rw [first, second, third, fourth, places]

theorem PackageGroup.tells (group : PackageGroup Position) : Tells toJson group := by
  obtain ⟨name, packages, includes, position⟩ := group
  rintro ⟨title, members, others, place⟩ same
  have first : name = title := by
    refine Value.tells_slot _ _ ?_
    simpa [List.lookup_append] using same.part "name" (by decide)
  have second : packages = members := by
    refine Value.tells_slot _ _ ?_
    simpa [List.lookup_append] using same.part "packages" (by decide)
  have third : includes = others := by
    refine Value.tells_slot _ _ ?_
    simpa [List.lookup_append] using same.part "includes" (by decide)
  have places : position = place :=
    same.places (by simp [List.lookup_append]) (by simp [List.lookup_append])
  rw [first, second, third, places]

theorem ExportsFiles.tells (exports : ExportsFiles Position) : Tells toJson exports := by
  obtain ⟨files, visibility, position⟩ := exports
  rintro ⟨others, seen, place⟩ same
  have listed : files = others := by
    refine files.tells others ?_
    simpa using same.part "files" (by decide)
  have shown : visibility = seen := by
    refine Json.tells_option _ _ (fun given _ => given.tells) ?_
    simpa using same.part "visibility" (by decide)
  have places : position = place := same.places (by simp) (by simp)
  rw [listed, shown, places]

/-! ## Files -/

theorem BuildFile.tells (file : BuildFile Position) : Tells toJson file := by
  obtain ⟨loads, rules, declarations, package, packageGroup, exportsFiles⟩ := file
  rintro ⟨imports, targets, bindings, owner, group, opened⟩ same
  have first : loads = imports := by
    refine Json.tells_list loads (fun load _ => load.tells) imports ?_
    simpa [List.lookup_append] using same.part "loads" (by decide)
  have second : rules = targets := by
    refine Json.tells_list rules (fun rule _ => rule.tells) targets ?_
    simpa [List.lookup_append] using same.part "rules" (by decide)
  have third : declarations = bindings := by
    refine Json.tells_list declarations (fun declaration _ => declaration.tells) bindings ?_
    simpa [List.lookup_append] using same.part "declarations" (by decide)
  have fourth : package = owner := by
    refine Json.tells_option _ _ (fun given _ => given.tells) ?_
    simpa [List.lookup_append] using same.part "package" (by decide)
  have fifth : packageGroup = group := by
    refine Json.tells_option _ _ (fun given _ => given.tells) ?_
    simpa [List.lookup_append] using same.part "packageGroup" (by decide)
  have sixth : exportsFiles = opened := by
    refine Json.tells_option _ _ (fun given _ => given.tells) ?_
    simpa [List.lookup_append] using same.part "exportsFiles" (by decide)
  rw [first, second, third, fourth, fifth, sixth]

/-- Two trees have the same document, fields in any order, exactly if they are one tree. -/
theorem document_determines_tree (file other : BuildFile Position) :
    file.toJson.Same other.toJson ↔ file = other := by
  constructor
  · exact file.tells other
  · rintro rfl
    exact Same.refl file.toJson

end BuildLang
