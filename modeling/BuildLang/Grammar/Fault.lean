import BuildLang.Token

/-!
# Faults

Why a token list is not what was looked for.  A fault stands at a token, counted
from zero; the end of input counts as one more token.  Faults that got equally
far are merged, so that a message can name every alternative.
-/

set_option autoImplicit false

namespace BuildLang

inductive Expected where
  | token (token : Token)
  | anyString
  | anyNumber
  | anyIdentifier
  | endOfInput
  deriving DecidableEq, Repr

inductive Part where
  | identifier
  | ruleName
  | string
  | number
  | value
  | array
  | dict
  | glob
  | select
  | load
  deriving DecidableEq, Repr

/-- The lists that admit no comma behind their last item. -/
inductive StrictList where
  | array
  | rule
  | load
  deriving DecidableEq, Repr

inductive Reason where
  | unexpected
  | unclosedParen
  | trailingComma (list : StrictList)
  deriving DecidableEq, Repr

/-- The part of the grammar that was being read: none, one, or several that
disagree. -/
inductive Scope where
  | unknown
  | within (part : Part)
  | several
  deriving DecidableEq, Repr

/-- A fault points at the token `start`.  `reach` tells how far reading got before
the fault was found, and decides which of two faults is the one to report. -/
structure Fault where
  reach : Nat
  start : Nat
  reason : Reason
  expected : List Expected
  found : Option Token
  scope : Scope
  deriving DecidableEq, Repr

namespace Expected

def describe : Expected → String
  | .token lexeme => s!"`{lexeme.text}`"
  | .anyString => "a string"
  | .anyNumber => "a number"
  | .anyIdentifier => "an identifier"
  | .endOfInput => "end of input"

/-- Both lists as sets, the elements of the first one in front. -/
def union (first second : List Expected) : List Expected :=
  first ++ second.filter (fun expected => !first.contains expected)

end Expected

def Part.name : Part → String
  | .identifier => "identifier"
  | .ruleName => "rule name"
  | .string => "string"
  | .number => "number"
  | .value => "value"
  | .array => "array"
  | .dict => "dict"
  | .glob => "glob"
  | .select => "select"
  | .load => "load statement"

def StrictList.name : StrictList → String
  | .array => "an array"
  | .rule => "a rule"
  | .load => "load()"

namespace Scope

/-- Scopes that agree stay, and an unknown one yields to the other. -/
def merge : Scope → Scope → Scope
  | .unknown, other => other
  | scope, .unknown => scope
  | .within first, .within second => if first = second then .within first else .several
  | _, _ => .several

/-- The innermost part that is known for sure stays. -/
def enter (part : Part) : Scope → Scope
  | .within inner => .within inner
  | _ => .within part

end Scope

/-- An unclosed parenthesis outweighs any other reason. -/
def Reason.merge : Reason → Reason → Reason
  | _, .unclosedParen => .unclosedParen
  | reason, _ => reason

/-- Puts a text into an ascending list, unless it is there already. -/
def insertAscending (text : String) : List String → List String
  | [] => [text]
  | head :: rest =>
      if text < head then text :: head :: rest
      else if text = head then head :: rest
      else head :: insertAscending text rest

namespace Fault

/-- A token, or the end of input, that does not fit. -/
def unexpected (index : Nat) (expected : List Expected) (found : Option Token) : Fault :=
  ⟨index, index, .unexpected, expected, found, .unknown⟩

/-- Two faults that got equally far, told as one; the first decides what was
found and where. -/
def merge (first second : Fault) : Fault :=
  { first with
    reason := first.reason.merge second.reason
    expected := Expected.union first.expected second.expected
    scope := first.scope.merge second.scope }

/-- The fault that got further; both merged if neither did. -/
def furthest (first : Fault) : Option Fault → Fault
  | none => first
  | some second =>
      if second.reach < first.reach then first
      else if first.reach < second.reach then second
      else first.merge second

/-- The furthest of an earlier and a later fault, the later one leading. -/
def latest : Option Fault → Option Fault → Option Fault
  | first, none => first
  | first, some second => some (second.furthest first)

def enter (part : Part) (fault : Fault) : Fault :=
  { fault with scope := fault.scope.enter part }

/-- The descriptions of what was expected: each one once, in ascending order. -/
def expectations (expected : List Expected) : List String :=
  (expected.map Expected.describe).foldr insertAscending []

/-- What the fault says is missing: the expected tokens, else the part of the
grammar it happened in. -/
def expectationText (fault : Fault) : String :=
  match expectations fault.expected, fault.scope with
  | [], .within part => s!", expected {part.name}"
  | [], _ => ""
  | descriptions, _ => ", expected " ++ " or ".intercalate descriptions

def foundText : Option Token → String
  | some lexeme => s!"`{lexeme.text}`"
  | none => "end of input"

def message (fault : Fault) : String :=
  match fault.reason with
  | .trailingComma list => s!"trailing comma is not allowed in {list.name}"
  | .unclosedParen => "unclosed delimiter `(`"
  | .unexpected => s!"unexpected {foundText fault.found}{fault.expectationText}"

end Fault

end BuildLang
