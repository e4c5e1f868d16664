import BuildLang.Position
import BuildLang.Text.Dump
import BuildLang.Tree.File
import BuildLang.Tree.Number

/-!
# Dumps of trees

Every node is shown as a record with all its fields, what follows from its text
included.
-/

set_option autoImplicit false

namespace BuildLang

def Position.dump (position : Position) : Dump :=
  .record "Position" [("line", .natural position.line), ("column", .natural position.column),
    ("offset", .natural position.offset)]

/-- The last field of every node. -/
def positionField (position : Option Position) : String × Dump :=
  ("position", .option (position.map Position.dump))

def StringLiteral.dump (literal : StringLiteral Position) : Dump :=
  .record "StringLiteral" [("raw", .string literal.raw), ("value", .string literal.value),
    positionField literal.position]

def NumberLiteral.dump (literal : NumberLiteral Position) : Dump :=
  .record "NumberLiteral" [("raw", .string literal.raw), ("value", .number literal.value),
    positionField literal.position]

def BooleanLiteral.dump (literal : BooleanLiteral Position) : Dump :=
  .record "Boolean" [("raw", .string literal.raw), ("value", .boolean literal.value),
    positionField literal.position]

def Identifier.dump (identifier : Identifier Position) : Dump :=
  .record "Identifier" [("raw", .string identifier.name), ("value", .string identifier.name),
    positionField identifier.position]

def Phrase.dump : Phrase Position → Dump
  | .string literal => .call "String" literal.dump
  | .identifier node => .call "Identifier" node.dump

def Element.dump : Element Position → Dump
  | .string literal => .call "String" literal.dump
  | .number literal => .call "Number" literal.dump
  | .boolean literal => .call "Boolean" literal.dump
  | .identifier node => .call "Identifier" node.dump

def ArrayLiteral.dump (array : ArrayLiteral Position) : Dump :=
  .record "ArrayType" [("values", .list (array.elements.map Element.dump)),
    positionField array.position]

def Glob.dump (glob : Glob Position) : Dump :=
  let patterns := fun list => Dump.list (list.map Phrase.dump)
  .record "GlobNode" [("includes", .option (glob.includes.map patterns)),
    ("excludes", .option (glob.excludes.map patterns)), positionField glob.position]

namespace Value

/-- The record of a dict, given those of its entries. -/
def dictDump (entries : List Dump) (position : Option Position) : Dump :=
  .record "DictType" [("values", .list entries), positionField position]

/-- The record of a select, given that of its constraint. -/
def selectDump (constraint : Dump) (message : Option (Phrase Position))
    (position : Option Position) : Dump :=
  .record "SelectStatement" [("constraint", constraint),
    ("no_match_error", .option (message.map Phrase.dump)), positionField position]

mutual

def dump : Value Position → Dump
  | .string literal => .call "String" literal.dump
  | .number literal => .call "Number" literal.dump
  | .boolean literal => .call "Boolean" literal.dump
  | .array node => .call "Array" node.dump
  | .identifier node => .call "Identifier" node.dump
  | .glob node => .call "Glob" node.dump
  | .dict ⟨entries, position⟩ => .call "Dict" (dictDump (entryDumps entries) position)
  | .select ⟨.dict ⟨entries, inner⟩, message, position⟩ =>
      .call "Select" (selectDump (.call "Dict" (dictDump (entryDumps entries) inner)) message
        position)
  | .select ⟨.identifier node, message, position⟩ =>
      .call "Select" (selectDump (.call "Identifier" node.dump) message position)

def entryDumps : List (Entry Position (Value Position)) → List Dump
  | [] => []
  | ⟨key, value⟩ :: rest =>
      .record "DictEntry" [("key", key.dump), ("value", dump value)] :: entryDumps rest

end

end Value

def Package.dump (package : Package Position) : Dump :=
  .record "PackageDeclaration" [
    ("default_visibility", .option (package.defaultVisibility.map Value.dump)),
    ("default_deprecation", .option (package.defaultDeprecation.map Value.dump)),
    ("default_testonly", .option (package.defaultTestonly.map Value.dump)),
    ("features", .option (package.features.map Value.dump)), positionField package.position]

end BuildLang
