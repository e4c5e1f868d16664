import Mathlib.Data.List.Lex

/-!
# The order of bytes

Texts compare by their characters.  In UTF-8 the encoding of a greater character is
greater at the first byte where the two differ, and such a byte there always is, so
texts compare by their bytes in the same way.
-/

set_option autoImplicit false

namespace BuildLang

/-- The UTF-8 encoding of a text. -/
def utf8Bytes (text : String) : List UInt8 :=
  text.toByteArray.data.toList

theorem utf8Bytes_eq (text : String) :
    utf8Bytes text = text.toList.flatMap String.utf8EncodeChar := by
  rw [utf8Bytes, ← String.utf8Encode_toList, List.utf8Encode]
  simp

theorem byte_lt_byte {a b : Nat} (left : a < 256) (right : b < 256) :
    UInt8.ofNat a < UInt8.ofNat b ↔ a < b := by
  rw [UInt8.lt_iff_toNat_lt, UInt8.toNat_ofNat_of_lt' left, UInt8.toNat_ofNat_of_lt' right]

theorem byte_eq_byte {a b : Nat} (left : a < 256) (right : b < 256) :
    UInt8.ofNat a = UInt8.ofNat b ↔ a = b := by
  rw [← UInt8.toNat_inj, UInt8.toNat_ofNat_of_lt' left, UInt8.toNat_ofNat_of_lt' right]

/-- The number of a character takes at most four digits of six bits. -/
theorem char_limit (c : Char) : c.val.toNat < 64 * 64 * 64 * 8 := by
  rcases c.valid with low | ⟨_, high⟩
  all_goals omega

/-- Of two numbers that are cut into digits of six bits, the greater one is greater at the
first digit where they differ. -/
theorem digits_order (v w : Nat) (below : v < w) (limit : w < 64 * 64 * 64 * 8) :
    v / 262144 % 8 < w / 262144 % 8 ∨ v / 262144 % 8 = w / 262144 % 8 ∧
      (v / 4096 % 64 < w / 4096 % 64 ∨ v / 4096 % 64 = w / 4096 % 64 ∧
        (v / 64 % 64 < w / 64 % 64 ∨ v / 64 % 64 = w / 64 % 64 ∧ v % 64 < w % 64)) := by
  have small : v / 262144 < 8 ∧ w / 262144 < 8 := by omega
  rw [Nat.mod_eq_of_lt small.1, Nat.mod_eq_of_lt small.2]
  by_cases first : v / 262144 < w / 262144
  · exact .inl first
  have firstSame : v / 262144 = w / 262144 := by omega
  refine .inr ⟨firstSame, ?_⟩
  by_cases second : v / 4096 % 64 < w / 4096 % 64
  · exact .inl second
  have secondSame : v / 4096 = w / 4096 := by omega
  refine .inr ⟨congrArg (· % 64) secondSame, ?_⟩
  by_cases third : v / 64 % 64 < w / 64 % 64
  · exact .inl third
  have thirdSame : v / 64 = w / 64 := by omega
  exact .inr ⟨congrArg (· % 64) thirdSame, by omega⟩

/-- The greater character has the greater encoding, whatever follows the two. -/
theorem encode_lt (c d : Char) (lt : c < d) (front back : List UInt8) :
    String.utf8EncodeChar c ++ front < String.utf8EncodeChar d ++ back := by
  have below : c.val.toNat < d.val.toNat := lt
  have limit := char_limit d
  unfold String.utf8EncodeChar
  generalize c.val.toNat = v at *
  generalize d.val.toNat = w at *
  dsimp only
  by_cases long : 0xffff < v
  · have digits := digits_order v w below limit
    simp (disch := omega) only [if_neg, List.cons_append, List.nil_append,
      List.cons_lt_cons_iff, byte_lt_byte, byte_eq_byte, Nat.add_lt_add_iff_right,
      Nat.add_right_cancel_iff]
    tauto
  · -- A longer encoding begins with a greater byte.
    split_ifs
    all_goals
      simp (disch := omega) only [List.cons_append, List.nil_append, List.cons_lt_cons_iff,
        byte_lt_byte, byte_eq_byte]
      omega

theorem encodings_lt (chars others : List Char) (lt : chars < others) :
    chars.flatMap String.utf8EncodeChar < others.flatMap String.utf8EncodeChar := by
  induction chars generalizing others with
  | nil =>
    cases others with
    | nil => exact absurd lt (List.lt_irrefl [])
    | cons d others =>
      obtain ⟨byte, rest, encoded⟩ :=
        List.exists_cons_of_ne_nil (String.utf8EncodeChar_ne_nil (c := d))
      rw [List.flatMap_nil, List.flatMap_cons, encoded, List.cons_append]
      exact List.nil_lt_cons byte _
  | cons c chars ih =>
    cases others with
    | nil => exact absurd lt (List.not_lt_nil _)
    | cons d others =>
      rw [List.flatMap_cons, List.flatMap_cons]
      rcases List.cons_lt_cons_iff.mp lt with differ | ⟨rfl, later⟩
      · exact encode_lt c d differ _ _
      · exact List.append_left_lt (ih others later)

/-- A text is below another one if its bytes are. -/
theorem lt_iff_utf8Bytes (first second : String) :
    first < second ↔ utf8Bytes first < utf8Bytes second := by
  have forward (left right : String) (lt : left < right) : utf8Bytes left < utf8Bytes right := by
    rw [utf8Bytes_eq, utf8Bytes_eq]
    exact encodings_lt left.toList right.toList lt
  refine ⟨forward first second, ?_⟩
  intro below
  by_contra notBelow
  by_cases above : second < first
  · exact List.lt_asymm below (forward second first above)
  · have same := String.le_antisymm (String.not_lt.mp above) (String.not_lt.mp notBelow)
    rw [same] at below
    exact List.lt_irrefl _ below

end BuildLang
