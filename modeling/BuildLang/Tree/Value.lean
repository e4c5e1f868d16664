import BuildLang.Tree.Kind
import BuildLang.Tree.Literal

/-!
# Values

What an attribute, a dict entry or a declaration may be set to.  Arrays hold
literals and names only; dicts hold any value, and a `select` chooses from a dict,
so these two make the type recursive.
-/

set_option autoImplicit false

namespace BuildLang

/-- What may stand in an array. -/
inductive Element (π : Type) where
  | string (literal : StringLiteral π)
  | number (literal : NumberLiteral π)
  | boolean (literal : BooleanLiteral π)
  | identifier (node : Identifier π)
  deriving DecidableEq, Repr

structure ArrayLiteral (π : Type) where
  elements : List (Element π)
  position : Option π := none
  deriving DecidableEq, Repr

/-- A file pattern.  A list that was not given differs from an empty one. -/
structure Glob (π : Type) where
  includes : Option (List (Phrase π)) := none
  excludes : Option (List (Phrase π)) := none
  position : Option π := none
  deriving DecidableEq, Repr

/-- An array, or a name bound to one elsewhere. -/
inductive ArrayOrName (π : Type) where
  | array (node : ArrayLiteral π)
  | identifier (node : Identifier π)
  deriving DecidableEq, Repr

/-- One `key: value` pair, over a type `ν` of values. -/
structure Entry (π ν : Type) where
  key : StringLiteral π
  value : ν
  deriving Repr

/-- A dict over a type `ν` of values.  Keys may repeat; their order is kept. -/
structure Dict (π ν : Type) where
  entries : List (Entry π ν)
  position : Option π := none
  deriving Repr

/-- What a `select` chooses from: a dict, or a name bound to one. -/
inductive Constraint (π ν : Type) where
  | dict (node : Dict π ν)
  | identifier (node : Identifier π)
  deriving Repr

/-- A choice by configuration, with the message for the case that nothing
matches. -/
structure Select (π ν : Type) where
  constraint : Constraint π ν
  noMatchError : Option (Phrase π) := none
  position : Option π := none
  deriving Repr

inductive Value (π : Type) where
  | string (literal : StringLiteral π)
  | number (literal : NumberLiteral π)
  | boolean (literal : BooleanLiteral π)
  | array (node : ArrayLiteral π)
  | identifier (node : Identifier π)
  | dict (node : Dict π (Value π))
  | select (node : Select π (Value π))
  | glob (node : Glob π)

namespace Element

variable {π ρ : Type}

def raw : Element π → String
  | .string literal => literal.raw
  | .number literal => literal.raw
  | .boolean literal => literal.raw
  | .identifier node => node.name

/-- The element as a reader names it: strings without their quotes. -/
def text : Element π → String
  | .string literal => literal.value
  | .number literal => literal.raw
  | .boolean literal => literal.raw
  | .identifier node => node.name

def string? : Element π → Option (StringLiteral π)
  | .string literal => some literal
  | _ => none

def mapPosition (f : π → ρ) : Element π → Element ρ
  | .string literal => .string (literal.mapPosition f)
  | .number literal => .number (literal.mapPosition f)
  | .boolean literal => .boolean (literal.mapPosition f)
  | .identifier node => .identifier (node.mapPosition f)

end Element

namespace ArrayLiteral

variable {π ρ : Type}

/-- The texts of the strings in an array; other elements are passed over. -/
def stringValues (array : ArrayLiteral π) : List String :=
  (array.elements.filterMap Element.string?).map StringLiteral.value

def mapPosition (f : π → ρ) (array : ArrayLiteral π) : ArrayLiteral ρ :=
  ⟨array.elements.map (Element.mapPosition f), array.position.map f⟩

end ArrayLiteral

namespace Glob

variable {π ρ : Type}

/-- The texts of the include patterns, none if there is no list. -/
def includePatterns (glob : Glob π) : List String :=
  (glob.includes.getD []).map Phrase.text

/-- The texts of the exclude patterns, none if there is no list. -/
def excludePatterns (glob : Glob π) : List String :=
  (glob.excludes.getD []).map Phrase.text

def mapPosition (f : π → ρ) (glob : Glob π) : Glob ρ :=
  ⟨glob.includes.map (List.map (Phrase.mapPosition f)),
    glob.excludes.map (List.map (Phrase.mapPosition f)), glob.position.map f⟩

end Glob

def ArrayOrName.mapPosition {π ρ : Type} (f : π → ρ) : ArrayOrName π → ArrayOrName ρ
  | .array node => .array (node.mapPosition f)
  | .identifier node => .identifier (node.mapPosition f)

namespace Dict

variable {π ν : Type}

def keys (dict : Dict π ν) : List String :=
  dict.entries.map (fun entry => entry.key.value)

/-- The value of the first entry with the given key text. -/
def get? (dict : Dict π ν) (key : String) : Option ν :=
  (dict.entries.find? (fun entry => entry.key.value = key)).map Entry.value

end Dict

namespace Value

variable {π ρ : Type}

mutual

def mapPosition (f : π → ρ) : Value π → Value ρ
  | .string literal => .string (literal.mapPosition f)
  | .number literal => .number (literal.mapPosition f)
  | .boolean literal => .boolean (literal.mapPosition f)
  | .array node => .array (node.mapPosition f)
  | .identifier node => .identifier (node.mapPosition f)
  | .dict ⟨entries, position⟩ => .dict ⟨mapEntryPositions f entries, position.map f⟩
  | .select ⟨.dict ⟨entries, inner⟩, message, position⟩ =>
      .select ⟨.dict ⟨mapEntryPositions f entries, inner.map f⟩,
        message.map (Phrase.mapPosition f), position.map f⟩
  | .select ⟨.identifier node, message, position⟩ =>
      .select ⟨.identifier (node.mapPosition f),
        message.map (Phrase.mapPosition f), position.map f⟩
  | .glob node => .glob (node.mapPosition f)

/-- The same entries with every place passed through `f`. -/
def mapEntryPositions (f : π → ρ) : List (Entry π (Value π)) → List (Entry ρ (Value ρ))
  | [] => []
  | ⟨key, value⟩ :: rest =>
      ⟨key.mapPosition f, mapPosition f value⟩ :: mapEntryPositions f rest

end

def kind : Value π → NodeKind
  | .string _ => .stringLiteral
  | .number _ => .numberLiteral
  | .boolean _ => .boolean
  | .array _ => .array
  | .identifier _ => .identifier
  | .dict _ => .dict
  | .select _ => .select
  | .glob _ => .glob

def position : Value π → Option π
  | .string literal => literal.position
  | .number literal => literal.position
  | .boolean literal => literal.position
  | .array node => node.position
  | .identifier node => node.position
  | .dict node => node.position
  | .select node => node.position
  | .glob node => node.position

def string? : Value π → Option (StringLiteral π)
  | .string literal => some literal
  | _ => none

def number? : Value π → Option (NumberLiteral π)
  | .number literal => some literal
  | _ => none

def boolean? : Value π → Option (BooleanLiteral π)
  | .boolean literal => some literal
  | _ => none

def array? : Value π → Option (ArrayLiteral π)
  | .array node => some node
  | _ => none

def identifier? : Value π → Option (Identifier π)
  | .identifier node => some node
  | _ => none

def dict? : Value π → Option (Dict π (Value π))
  | .dict node => some node
  | _ => none

def select? : Value π → Option (Select π (Value π))
  | .select node => some node
  | _ => none

def glob? : Value π → Option (Glob π)
  | .glob node => some node
  | _ => none

end Value

end BuildLang
