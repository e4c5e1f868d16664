/-!
# Lexical patterns

How far each kind of lexeme reaches into the characters that follow.  Every
function here is a longest match: it returns the number of characters it takes,
and a count of zero means that the pattern does not match at all.
-/

set_option autoImplicit false

namespace BuildLang.Pattern

/-- Space, tab, carriage return, newline and form feed separate tokens; no other
character does. -/
def isBlank (c : Char) : Bool :=
  c = ' ' || c = '\t' || c = '\r' || c = '\n' || c = '\x0c'

def isDigit (c : Char) : Bool :=
  '0' ≤ c && c ≤ '9'

def isHexDigit (c : Char) : Bool :=
  isDigit c || ('a' ≤ c && c ≤ 'f') || ('A' ≤ c && c ≤ 'F')

/-- Words begin with an ASCII letter or an underscore. -/
def isWordStart (c : Char) : Bool :=
  ('a' ≤ c && c ≤ 'z') || ('A' ≤ c && c ≤ 'Z') || c = '_'

def isWordPart (c : Char) : Bool :=
  isWordStart c || isDigit c

/-- The characters that may follow a backslash on their own. -/
def isEscape (c : Char) : Bool :=
  c = '"' || c = '\\' || c = '/' || c = 'b' || c = 'f' || c = 'n' || c = 'r' || c = 't' ||
    c = 'v'

/-- Neither end of line may stand inside a string. -/
def isLineEnd (c : Char) : Bool :=
  c = '\n' || c = '\r'

/-- How the text behind an opening quote goes on: up to and including a closing
quote, or up to the place where it can no longer become a string. -/
inductive StringReach where
  | closed (length : Nat)
  | broken (length : Nat)
  deriving DecidableEq, Repr

def StringReach.grow (more : Nat) : StringReach → StringReach
  | .closed length => .closed (length + more)
  | .broken length => .broken (length + more)

/-- Reads behind an opening quote.  A backslash that starts no escape belongs to
what is broken; an end of line does not. -/
def stringReach : List Char → StringReach
  | [] => .broken 0
  | '\\' :: 'u' :: a :: b :: c :: d :: rest =>
      if isHexDigit a && isHexDigit b && isHexDigit c && isHexDigit d then
        (stringReach rest).grow 6
      else .broken 1
  | '\\' :: escaped :: rest =>
      if isEscape escaped then (stringReach rest).grow 2 else .broken 1
  | c :: rest =>
      if c = '"' then .closed 1
      else if c = '\\' then .broken 1
      else if isLineEnd c then .broken 0
      else (stringReach rest).grow 1

def digitsLength (text : List Char) : Nat :=
  (text.takeWhile isDigit).length

/-- A whole part is a lone zero or a run of digits that starts with another one. -/
def wholeLength : List Char → Nat
  | [] => 0
  | c :: rest => if c = '0' then 1 else digitsLength (c :: rest)

/-- A point counts only with a digit behind it. -/
def fractionLength : List Char → Nat
  | [] => 0
  | c :: rest =>
      if c = '.' then
        match digitsLength rest with
        | 0 => 0
        | count => count + 1
      else 0

def signLength : List Char → Nat
  | [] => 0
  | c :: _ => if c = '+' || c = '-' then 1 else 0

/-- An exponent mark counts only with a digit behind it and its optional sign. -/
def exponentLength : List Char → Nat
  | [] => 0
  | c :: rest =>
      if c = 'e' || c = 'E' then
        match digitsLength (rest.drop (signLength rest)) with
        | 0 => 0
        | count => count + signLength rest + 1
      else 0

def unsignedLength (text : List Char) : Nat :=
  match wholeLength text with
  | 0 => 0
  | whole =>
      let fraction := fractionLength (text.drop whole)
      whole + fraction + exponentLength (text.drop (whole + fraction))

/-- The longest number at the front, with at most a minus as its sign. -/
def numberLength : List Char → Nat
  | [] => 0
  | c :: rest =>
      if c = '-' then
        match unsignedLength rest with
        | 0 => 0
        | count => count + 1
      else unsignedLength (c :: rest)

/-- The longest word at the front. -/
def wordLength : List Char → Nat
  | [] => 0
  | c :: rest => if isWordStart c then (rest.takeWhile isWordPart).length + 1 else 0

end BuildLang.Pattern
