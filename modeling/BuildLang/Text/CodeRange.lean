/-!
# Ranges of code points

Properties of characters are kept as lists of ranges, both ends included, in
ascending order.
-/

set_option autoImplicit false

namespace BuildLang.CodeRange

def covers (ranges : List (Nat × Nat)) (c : Char) : Bool :=
  ranges.any (fun range => range.1 ≤ c.toNat && c.toNat ≤ range.2)

end BuildLang.CodeRange
