import BuildLang.Text.CodeRange

/-!
# Blanks

The characters that Unicode counts as white space, and texts without those at their
ends.
-/

set_option autoImplicit false

namespace BuildLang.Blank

def ranges : List (Nat × Nat) :=
  [(0x9, 0xd), (0x20, 0x20), (0x85, 0x85), (0xa0, 0xa0), (0x1680, 0x1680), (0x2000, 0x200a),
    (0x2028, 0x2029), (0x202f, 0x202f), (0x205f, 0x205f), (0x3000, 0x3000)]

def isBlank (c : Char) : Bool :=
  CodeRange.covers ranges c

/-- A text without the blanks at its ends. -/
def strip (text : String) : String :=
  let front := text.toList.dropWhile isBlank
  String.ofList (front.reverse.dropWhile isBlank).reverse

end BuildLang.Blank
