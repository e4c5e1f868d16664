import BuildLang.Json.Basic
import BuildLang.Token

/-!
# Tokens in JSON

A token is the name of its kind, or an object from that name to its text.
-/

set_option autoImplicit false

namespace BuildLang

def Token.toJson : Token → Json
  | .load => .string "Load"
  | .glob => .string "Glob"
  | .string raw => .object [("Str", .string raw)]
  | .number raw => .object [("Number", .string raw)]
  | .boolean true => .string "True"
  | .boolean false => .string "False"
  | .identifier name => .object [("Ident", .string name)]
  | .comma => .string "Comma"
  | .leftBracket => .string "LBracket"
  | .rightBracket => .string "RBracket"
  | .leftParen => .string "LParen"
  | .rightParen => .string "RParen"
  | .leftBrace => .string "LBrace"
  | .rightBrace => .string "RBrace"
  | .equals => .string "Equals"
  | .colon => .string "Colon"

end BuildLang
