/-!
# Tokens

The vocabulary of a BUILD file.  Strings, numbers and identifiers keep the text
they were written with; every other token has exactly one spelling.
-/

set_option autoImplicit false

namespace BuildLang

/-- One token.  A string keeps its quotes in `raw`, and its escapes as written. -/
inductive Token where
  | load
  | glob
  | string (raw : String)
  | number (raw : String)
  | boolean (value : Bool)
  | identifier (name : String)
  | comma
  | leftBracket
  | rightBracket
  | leftParen
  | rightParen
  | leftBrace
  | rightBrace
  | equals
  | colon
  deriving DecidableEq, Repr, Inhabited

def booleanText (value : Bool) : String :=
  if value then "True" else "False"

namespace Token

def text : Token → String
  | .load => "load"
  | .glob => "glob"
  | .string raw => raw
  | .number raw => raw
  | .boolean value => booleanText value
  | .identifier name => name
  | .comma => ","
  | .leftBracket => "["
  | .rightBracket => "]"
  | .leftParen => "("
  | .rightParen => ")"
  | .leftBrace => "\x7b"
  | .rightBrace => "\x7d"
  | .equals => "="
  | .colon => ":"

/-- The class a token belongs to; both truth values share one. -/
def category : Token → String
  | .load => "load"
  | .glob => "glob"
  | .string _ => "string"
  | .number _ => "number"
  | .boolean _ => "boolean"
  | .identifier _ => "identifier"
  | .comma => "comma"
  | .leftBracket => "lbracket"
  | .rightBracket => "rbracket"
  | .leftParen => "lparen"
  | .rightParen => "rparen"
  | .leftBrace => "lbrace"
  | .rightBrace => "rbrace"
  | .equals => "equals"
  | .colon => "colon"

/-- The token a bare word denotes: four words are keywords, all others name
something.  Words such as `package` and `select` are told apart by the grammar. -/
def ofWord (word : String) : Token :=
  if word = "load" then .load
  else if word = "glob" then .glob
  else if word = "True" then .boolean true
  else if word = "False" then .boolean false
  else .identifier word

def ofMark? (mark : Char) : Option Token :=
  if mark = ',' then some .comma
  else if mark = '[' then some .leftBracket
  else if mark = ']' then some .rightBracket
  else if mark = '(' then some .leftParen
  else if mark = ')' then some .rightParen
  else if mark = '{' then some .leftBrace
  else if mark = '}' then some .rightBrace
  else if mark = '=' then some .equals
  else if mark = ':' then some .colon
  else none

end Token

end BuildLang
