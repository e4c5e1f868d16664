/-!
# Keys of settings

A key is a path to a setting: a name, then names parted by points and indices in
brackets.  An index below zero counts from the end of a sequence.
-/

set_option autoImplicit false

namespace BuildLang

/-- A step into a tree of settings: to an entry of a table or to an item of a
sequence. -/
inductive SettingStep where
  | name (name : String)
  | index (index : Int)
  deriving DecidableEq, Repr

/-- A path that begins with a name. -/
structure SettingKey where
  first : String
  rest : List SettingStep := []
  deriving DecidableEq, Repr

namespace SettingKey

def isNameChar (c : Char) : Bool :=
  c.isAlphanum || c = ' ' || c = '_' || c = '-'

def isBlank (c : Char) : Bool :=
  c = ' ' || c = '\t'

/-- A name at the front, and what stands behind it. -/
def readName? (text : List Char) : Option (String × List Char) :=
  match text.takeWhile isNameChar with
  | [] => none
  | name => some (String.ofList name, text.dropWhile isNameChar)

/-- Indices are numbers of 64 bits with a sign. -/
def isIndex (index : Int) : Bool :=
  -9223372036854775808 ≤ index && index ≤ 9223372036854775807

/-- An index with its closing bracket at the front, and what stands behind that.
Blanks may surround the number. -/
def readIndex? (text : List Char) : Option (Int × List Char) :=
  let text := text.dropWhile isBlank
  let negative := text.head? = some '-'
  let text := if negative then text.drop 1 else text
  let digits := text.takeWhile Char.isDigit
  match digits, (text.dropWhile Char.isDigit).dropWhile isBlank with
  | _ :: _, ']' :: rest =>
      let number : Int :=
        (digits.foldl (fun number digit => 10 * number + (digit.toNat - '0'.toNat)) 0 : Nat)
      let index := if negative then -number else number
      if isIndex index then some (index, rest) else none
  | _, _ => none

/-- One more step at the front, and what stands behind it. -/
def readStep? : List Char → Option (SettingStep × List Char)
  | '.' :: rest => (readName? rest).map fun pair => (.name pair.1, pair.2)
  | '[' :: rest => (readIndex? rest).map fun pair => (.index pair.1, pair.2)
  | _ => none

/-- Reads steps up to the end of a text.  Each takes a character at least, so the
length of the text bounds their number. -/
def readSteps? : Nat → List Char → Option (List SettingStep)
  | _, [] => some []
  | 0, _ :: _ => none
  | fuel + 1, c :: rest => do
      let (step, rest) ← readStep? (c :: rest)
      let steps ← readSteps? fuel rest
      return step :: steps

/-- Reads a key; one that is empty, or that ends in a point, is none. -/
def ofString? (text : String) : Option SettingKey := do
  let (first, rest) ← readName? text.toList
  let steps ← readSteps? rest.length rest
  return ⟨first, steps⟩

end SettingKey

end BuildLang
