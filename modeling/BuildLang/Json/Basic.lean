import BuildLang.Decimal.Style
import BuildLang.Layout.Line

/-!
# JSON

JSON documents and their text.  Fields keep their order.  Numbers are natural
numbers or decimals that were written beforehand.
-/

set_option autoImplicit false

namespace BuildLang

inductive Json where
  | null
  | boolean (value : Bool)
  | natural (value : Nat)
  | decimal (text : String)
  | string (text : String)
  | array (items : List Json)
  | object (fields : List (String × Json))

namespace Json

/-- A floating-point number; only finite ones have a text in JSON. -/
def ofBinary64 (number : Binary64) : Json :=
  match number with
  | .finite .. => .decimal (DecimalStyle.json.write number)
  | _ => .null

def hexDigit (digit : Nat) : Char :=
  Nat.digitChar digit

/-- A character inside a string: quotes, backslashes and control characters are
escaped, and five of those by a letter. -/
def escape (c : Char) : String :=
  if c = '"' then "\\\""
  else if c = '\\' then "\\\\"
  else if c = '\n' then "\\n"
  else if c = '\r' then "\\r"
  else if c = '\t' then "\\t"
  else if c = '\x08' then "\\b"
  else if c = '\x0c' then "\\f"
  else if c.toNat < 32 then
    "\\u00" ++ String.ofList [hexDigit (c.toNat / 16), hexDigit (c.toNat % 16)]
  else c.toString

def quote (text : String) : String :=
  "\"" ++ String.join (text.toList.map escape) ++ "\""

mutual

/-- The lines of a document; each item and each field has lines of its own. -/
def layout : Json → List Line
  | .null => Line.single "null"
  | .boolean value => Line.single (if value then "true" else "false")
  | .natural value => Line.single (toString value)
  | .decimal text => Line.single text
  | .string text => Line.single (quote text)
  | .array items => Line.block "[" (layoutItems items) "]"
  | .object fields => Line.block "\x7b" (layoutFields fields) "\x7d"

/-- Items with a comma behind every one but the last. -/
def layoutItems : List Json → List Line
  | [] => []
  | item :: rest =>
      Line.beside (layout item) (Line.single (if rest.isEmpty then "" else ",")) ++
        layoutItems rest

/-- Fields with a comma behind every one but the last. -/
def layoutFields : List (String × Json) → List Line
  | [] => []
  | (name, value) :: rest =>
      Line.besideAll [Line.single (quote name ++ ": "), layout value,
        Line.single (if rest.isEmpty then "" else ",")] ++ layoutFields rest

end

/-- The text of a document, two blanks deep a level, with no newline at its end. -/
def print (json : Json) : String :=
  "\n".intercalate (json.layout.map (fun line => line.render "  "))

end Json

end BuildLang
