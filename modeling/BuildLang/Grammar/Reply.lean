import BuildLang.Grammar.Fault

/-!
# Parsers and their replies

A parser looks at the tokens behind a cursor.  It replies with the faults it got
past, and either with a value, or with the fault that stopped it.  A value comes
with a hint: the furthest fault met on the way to it, which explains the failure
should the tokens behind the value turn out not to fit.
-/

set_option autoImplicit false

namespace BuildLang

/-- The tokens not read yet, and how many were read. -/
structure Cursor where
  index : Nat
  rest : List Token
  deriving DecidableEq, Repr

structure Success (α : Type) where
  value : α
  hint : Option Fault
  next : Cursor
  deriving Repr

structure Reply (α : Type) where
  faults : List Fault
  outcome : Except Fault (Success α)

abbrev Parser (α : Type) := Cursor → Reply α

namespace Cursor

def start (tokens : List Token) : Cursor :=
  ⟨0, tokens⟩

/-- The fault of a cursor at which something else was expected. -/
def unexpected (cursor : Cursor) (expected : List Expected) : Fault :=
  .unexpected cursor.index expected cursor.rest.head?

end Cursor

namespace Reply

variable {α β : Type}

def success (value : α) (next : Cursor) : Reply α :=
  ⟨[], .ok ⟨value, none, next⟩⟩

def failure (fault : Fault) : Reply α :=
  ⟨[], .error fault⟩

def after (earlier : List Fault) (reply : Reply α) : Reply α :=
  { reply with faults := earlier ++ reply.faults }

def mapValue (f : α → β) (reply : Reply α) : Reply β :=
  match reply.outcome with
  | .ok success => ⟨reply.faults, .ok ⟨f success.value, success.hint, success.next⟩⟩
  | .error fault => ⟨reply.faults, .error fault⟩

/-- The fault that explains a reply best, whichever way it went. -/
def hint (reply : Reply α) : Option Fault :=
  match reply.outcome with
  | .ok success => success.hint
  | .error fault => some fault

/-- The same reply with its hint merged with an earlier one; a failure is left
alone. -/
def withHint (earlier : Option Fault) (reply : Reply α) : Reply α :=
  match reply.outcome with
  | .ok success =>
      { reply with outcome := .ok { success with hint := Fault.latest success.hint earlier } }
  | .error _ => reply

end Reply

end BuildLang
