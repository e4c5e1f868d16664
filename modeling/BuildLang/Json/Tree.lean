import BuildLang.Json.Basic
import BuildLang.Position
import BuildLang.Tree.File
import BuildLang.Tree.Number

/-!
# Trees in JSON

Every node is an object that begins with its kind.  Parts that are missing have no
field, and the place of a node comes last.
-/

set_option autoImplicit false

namespace BuildLang

namespace Position

def toJson (position : Position) : Json :=
  .object [("line", .natural position.line), ("column", .natural position.column),
    ("offset", .natural position.offset)]

end Position

namespace Json

def optionalField {α : Type} (name : String) (encode : α → Json) (part : Option α) :
    List (String × Json) :=
  (part.map (fun value => (name, encode value))).toList

def node (kind : NodeKind) (fields : List (String × Json)) (position : Option Position) : Json :=
  .object (("type", .string kind.name) :: fields ++
    optionalField "position" Position.toJson position)

end Json

open Json (node optionalField)

def StringLiteral.toJson (literal : StringLiteral Position) : Json :=
  node .stringLiteral [("raw", .string literal.raw), ("value", .string literal.value)]
    literal.position

def NumberLiteral.toJson (literal : NumberLiteral Position) : Json :=
  node .numberLiteral [("raw", .string literal.raw), ("value", .ofBinary64 literal.value)]
    literal.position

def BooleanLiteral.toJson (literal : BooleanLiteral Position) : Json :=
  node .boolean [("raw", .string literal.raw), ("value", .boolean literal.value)]
    literal.position

def Identifier.toJson (identifier : Identifier Position) : Json :=
  node .identifier [("raw", .string identifier.name), ("value", .string identifier.name)]
    identifier.position

def Phrase.toJson : Phrase Position → Json
  | .string literal => literal.toJson
  | .identifier node => node.toJson

def Element.toJson : Element Position → Json
  | .string literal => literal.toJson
  | .number literal => literal.toJson
  | .boolean literal => literal.toJson
  | .identifier node => node.toJson

def ArrayLiteral.toJson (array : ArrayLiteral Position) : Json :=
  node .array [("values", .array (array.elements.map Element.toJson))] array.position

def ArrayOrName.toJson : ArrayOrName Position → Json
  | .array node => node.toJson
  | .identifier node => node.toJson

namespace Glob

def patternsToJson (patterns : List (Phrase Position)) : Json :=
  .array (patterns.map Phrase.toJson)

def toJson (glob : Glob Position) : Json :=
  node .glob (optionalField "includes" patternsToJson glob.includes ++
    optionalField "excludes" patternsToJson glob.excludes) glob.position

end Glob

namespace Value

/-- The object of a dict, given those of its entries. -/
def dictToJson (entries : List Json) (position : Option Position) : Json :=
  node .dict [("values", .array entries)] position

/-- The object of a select, given that of its constraint. -/
def selectToJson (constraint : Json) (message : Option (Phrase Position))
    (position : Option Position) : Json :=
  node .select (("constraint", constraint) ::
    optionalField "noMatchErrorNode" Phrase.toJson message) position

mutual

def toJson : Value Position → Json
  | .string literal => literal.toJson
  | .number literal => literal.toJson
  | .boolean literal => literal.toJson
  | .array node => node.toJson
  | .identifier node => node.toJson
  | .glob node => node.toJson
  | .dict ⟨entries, position⟩ => dictToJson (entriesToJson entries) position
  | .select ⟨.dict ⟨entries, inner⟩, message, position⟩ =>
      selectToJson (dictToJson (entriesToJson entries) inner) message position
  | .select ⟨.identifier node, message, position⟩ =>
      selectToJson node.toJson message position

/-- The objects of the entries of a dict, which have no place of their own. -/
def entriesToJson : List (Entry Position (Value Position)) → List Json
  | [] => []
  | ⟨key, value⟩ :: rest =>
      node .dictEntry [("key", key.toJson), ("value", toJson value)] none :: entriesToJson rest

end

end Value

def LoadedSymbol.toJson : LoadedSymbol Position → Json
  | .plain symbol position => node .plainSymbol [("symbol", .string symbol)] position
  | .renamed name symbol position =>
      node .renamedSymbol [("identifier", .string name), ("symbol", .string symbol)] position

def Load.toJson (load : Load Position) : Json :=
  node .load [("from", .string load.source),
    ("symbols", .array (load.symbols.map LoadedSymbol.toJson))] load.position

def Attribute.toJson (argument : Attribute Position) : Json :=
  node .ruleAttribute [("identifier", .string argument.name), ("value", argument.value.toJson)]
    argument.position

def Rule.toJson (rule : Rule Position) : Json :=
  node .rule [("kind", .string rule.kind),
    ("attributes", .array (rule.attributes.map Attribute.toJson))] rule.position

def Declaration.toJson (declaration : Declaration Position) : Json :=
  node .declaration [("identifier", .string declaration.name),
    ("initializer", declaration.value.toJson)] declaration.position

def Package.toJson (package : Package Position) : Json :=
  node .package (optionalField "defaultVisibility" Value.toJson package.defaultVisibility ++
    optionalField "defaultDeprecation" Value.toJson package.defaultDeprecation ++
    optionalField "defaultTestonly" Value.toJson package.defaultTestonly ++
    optionalField "features" Value.toJson package.features) package.position

def PackageGroup.toJson (group : PackageGroup Position) : Json :=
  node .packageGroup (optionalField "name" Value.toJson group.name ++
    optionalField "packages" Value.toJson group.packages ++
    optionalField "includes" Value.toJson group.includes) group.position

def ExportsFiles.toJson (exports : ExportsFiles Position) : Json :=
  node .exportsFiles (("files", exports.files.toJson) ::
    optionalField "visibility" ArrayOrName.toJson exports.visibility) exports.position

def BuildFile.toJson (file : BuildFile Position) : Json :=
  node .buildFile ([("loads", .array (file.loads.map Load.toJson)),
    ("rules", .array (file.rules.map Rule.toJson)),
    ("declarations", .array (file.declarations.map Declaration.toJson))] ++
    optionalField "package" Package.toJson file.package ++
    optionalField "packageGroup" PackageGroup.toJson file.packageGroup ++
    optionalField "exportsFiles" ExportsFiles.toJson file.exportsFiles) none

end BuildLang
