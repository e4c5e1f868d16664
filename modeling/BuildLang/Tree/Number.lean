import BuildLang.Decimal.Reading
import BuildLang.Tree.Literal

/-!
# The value of a number

A number keeps its text; what it means follows from that.
-/

set_option autoImplicit false

namespace BuildLang

/-- The 64-bit number nearest to what is written, or no number if that denotes
none. -/
def NumberLiteral.value {π : Type} (literal : NumberLiteral π) : Binary64 :=
  (Binary64.read? literal.raw).getD .undefined

end BuildLang
