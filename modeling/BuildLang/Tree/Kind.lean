/-!
# Kinds of nodes

Each node of a tree has a kind.  Its name tags the node in the JSON form and
names it in messages, and no two kinds share one.
-/

set_option autoImplicit false

namespace BuildLang

inductive NodeKind where
  | stringLiteral
  | numberLiteral
  | boolean
  | identifier
  | array
  | dict
  | dictEntry
  | glob
  | select
  | plainSymbol
  | renamedSymbol
  | load
  | ruleAttribute
  | rule
  | declaration
  | package
  | packageGroup
  | exportsFiles
  | buildFile
  deriving DecidableEq, Repr

def NodeKind.name : NodeKind → String
  | .stringLiteral => "STRING_LITERAL"
  | .numberLiteral => "NUMBER_LITERAL"
  | .boolean => "BOOLEAN"
  | .identifier => "IDENTIFIER_NODE"
  | .array => "ARRAY_TYPE"
  | .dict => "DICT_TYPE"
  | .dictEntry => "DICT_ENTRY_NODE"
  | .glob => "GLOB"
  | .select => "SELECT_STATEMENT_NODE"
  | .plainSymbol => "SYMBOL_LOAD"
  | .renamedSymbol => "SYMBOL_RENAME_LOAD"
  | .load => "LOAD_STATEMENT"
  | .ruleAttribute => "RULE_ATTRIBUTE"
  | .rule => "RULE"
  | .declaration => "VARIABLE_DECLARATION"
  | .package => "PACKAGE_DECLARATION"
  | .packageGroup => "PACKAGE_GROUP_DECLARATION"
  | .exportsFiles => "EXPORTS_FILES_DECLARATION"
  | .buildFile => "BUILD_FILE"

end BuildLang
