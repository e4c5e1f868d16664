import BuildLang.Decimal.Style
import BuildLang.Text.Shapeless

/-!
# Dumps

A text form of values for messages: strings in quotes with escapes, lists in
brackets, and nodes with all their fields by name.
-/

set_option autoImplicit false

namespace BuildLang

inductive Dump where
  | word (text : String)
  | string (text : String)
  | list (items : List Dump)
  | call (name : String) (argument : Dump)
  | record (name : String) (fields : List (String × Dump))

namespace Dump

def hexDigits (number : Nat) : String :=
  String.ofList (Nat.toDigits 16 number)

def escape (c : Char) : String :=
  if c = '"' then "\\\""
  else if c = '\\' then "\\\\"
  else if c = '\n' then "\\n"
  else if c = '\r' then "\\r"
  else if c = '\t' then "\\t"
  else if c = '\x00' then "\\0"
  else if Shapeless.isShapeless c then "\\u\x7b" ++ hexDigits c.toNat ++ "\x7d"
  else c.toString

def quote (text : String) : String :=
  "\"" ++ String.join (text.toList.map escape) ++ "\""

mutual

def text : Dump → String
  | .word content => content
  | .string content => quote content
  | .list items => "[" ++ itemsText items ++ "]"
  | .call name argument => name ++ "(" ++ text argument ++ ")"
  | .record name fields => name ++ " \x7b " ++ fieldsText fields ++ " \x7d"

def itemsText : List Dump → String
  | [] => ""
  | [item] => text item
  | item :: rest => text item ++ ", " ++ itemsText rest

def fieldsText : List (String × Dump) → String
  | [] => ""
  | [(name, value)] => name ++ ": " ++ text value
  | (name, value) :: rest => name ++ ": " ++ text value ++ ", " ++ fieldsText rest

end

def boolean (value : Bool) : Dump :=
  .word (if value then "true" else "false")

def natural (value : Nat) : Dump :=
  .word (toString value)

def number (value : Binary64) : Dump :=
  .word (DecimalStyle.dump.write value)

def strings (texts : List String) : Dump :=
  .list (texts.map Dump.string)

def option : Option Dump → Dump
  | none => .word "None"
  | some value => .call "Some" value

end Dump

end BuildLang
