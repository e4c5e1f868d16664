import BuildLang.Token

/-!
# Literals and names

The leaves of a tree.  Every node carries a place of a type `π` of the reader's
choosing, or none when it was built by hand: a parser that only counts tokens
and a reader that wants lines and columns share one tree type.
-/

set_option autoImplicit false

namespace BuildLang

/-- The text between the quotes of a string image; text that is not quoted on
both sides is left alone. -/
def unquoted (raw : String) : String :=
  match raw.toList with
  | [] => raw
  | opening :: rest =>
      if opening = '"' && rest.getLast? = some '"' then String.ofList rest.dropLast else raw

def quoted (text : String) : String :=
  "\"" ++ text ++ "\""

/-- A string as written, quotes included; escapes stay as they are. -/
structure StringLiteral (π : Type) where
  raw : String
  position : Option π := none
  deriving DecidableEq, Repr

structure NumberLiteral (π : Type) where
  raw : String
  position : Option π := none
  deriving DecidableEq, Repr

structure BooleanLiteral (π : Type) where
  value : Bool
  position : Option π := none
  deriving DecidableEq, Repr

structure Identifier (π : Type) where
  name : String
  position : Option π := none
  deriving DecidableEq, Repr

namespace StringLiteral

variable {π ρ : Type}

def ofText (text : String) : StringLiteral π :=
  ⟨quoted text, none⟩

def value (literal : StringLiteral π) : String :=
  unquoted literal.raw

def mapPosition (f : π → ρ) (literal : StringLiteral π) : StringLiteral ρ :=
  ⟨literal.raw, literal.position.map f⟩

end StringLiteral

def NumberLiteral.mapPosition {π ρ : Type} (f : π → ρ) (literal : NumberLiteral π) :
    NumberLiteral ρ :=
  ⟨literal.raw, literal.position.map f⟩

namespace BooleanLiteral

variable {π ρ : Type}

def raw (literal : BooleanLiteral π) : String :=
  booleanText literal.value

def mapPosition (f : π → ρ) (literal : BooleanLiteral π) : BooleanLiteral ρ :=
  ⟨literal.value, literal.position.map f⟩

end BooleanLiteral

def Identifier.mapPosition {π ρ : Type} (f : π → ρ) (identifier : Identifier π) :
    Identifier ρ :=
  ⟨identifier.name, identifier.position.map f⟩

/-- What stands where only a string or a name may: a glob pattern or an error
message. -/
inductive Phrase (π : Type) where
  | string (literal : StringLiteral π)
  | identifier (node : Identifier π)
  deriving DecidableEq, Repr

namespace Phrase

variable {π ρ : Type}

/-- The text of the string, or the name. -/
def text : Phrase π → String
  | .string literal => literal.value
  | .identifier node => node.name

def raw : Phrase π → String
  | .string literal => literal.raw
  | .identifier node => node.name

def mapPosition (f : π → ρ) : Phrase π → Phrase ρ
  | .string literal => .string (literal.mapPosition f)
  | .identifier node => .identifier (node.mapPosition f)

end Phrase

end BuildLang
