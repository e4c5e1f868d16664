import Mathlib.Data.List.Forall2

/-!
# Letter case

A name has a given lower case form when it spells that word, each letter small or
capital.  Only the ASCII letters have two forms.
-/

set_option autoImplicit false

namespace BuildLang

/-- The word, each of its letters small or capital. -/
def SpellsWord (word name : String) : Prop :=
  List.Forall₂ (fun c letter => c = letter ∨ c = Char.toUpper letter) name.toList word.toList

instance (word name : String) : Decidable (SpellsWord word name) :=
  inferInstanceAs (Decidable (List.Forall₂ _ _ _))

def isSmallLetter (c : Char) : Bool :=
  97 ≤ c.toNat && c.toNat ≤ 122

theorem toNat_toLower (c : Char) :
    c.toLower.toNat = if 65 ≤ c.toNat ∧ c.toNat ≤ 90 then c.toNat + 32 else c.toNat := by
  have capital : (c.val ≥ 'A'.val ∧ c.val ≤ 'Z'.val) ↔ 65 ≤ c.toNat ∧ c.toNat ≤ 90 := by
    simp only [ge_iff_le, UInt32.le_iff_toNat_le]
    rfl
  delta Char.toLower
  by_cases inside : c.val ≥ 'A'.val ∧ c.val ≤ 'Z'.val
  · have bounds := capital.mp inside
    have sum : (c.val + ('a'.val - 'A'.val)).toNat = c.toNat + 32 := by
      have step : ('a'.val - 'A'.val).toNat = 32 := rfl
      have low : c.val.toNat ≤ 90 := bounds.2
      rw [UInt32.toNat_add, step]
      exact Nat.mod_eq_of_lt (by omega)
    rw [dif_pos inside, if_pos bounds]
    exact sum
  · rw [dif_neg inside, if_neg (capital.not.mp inside)]

theorem toNat_toUpper (c : Char) (small : isSmallLetter c = true) :
    c.toUpper.toNat + 32 = c.toNat := by
  simp only [isSmallLetter, Bool.and_eq_true, decide_eq_true_eq] at small
  have inside : c.val ≥ 'a'.val ∧ c.val ≤ 'z'.val := by
    simp only [ge_iff_le, UInt32.le_iff_toNat_le]
    exact small
  have difference : (c.val + ('A'.val - 'a'.val)).toNat + 32 = c.toNat := by
    -- The step down to the capital letters wraps around.
    have step : ('A'.val - 'a'.val).toNat = 2 ^ 32 - 32 := rfl
    have number : c.val.toNat = c.toNat := rfl
    rw [UInt32.toNat_add, step, number]
    omega
  delta Char.toUpper
  rw [dif_pos inside]
  exact difference

theorem toLower_eq_letter (c letter : Char) (small : isSmallLetter letter = true) :
    c.toLower = letter ↔ c = letter ∨ c = letter.toUpper := by
  have number (c d : Char) : c = d ↔ c.toNat = d.toNat := by
    rw [Char.ext_iff, ← UInt32.toNat_inj]
    rfl
  have capital := toNat_toUpper letter small
  simp only [isSmallLetter, Bool.and_eq_true, decide_eq_true_eq] at small
  rw [number, number, number, toNat_toLower]
  split
  · omega
  · omega

theorem map_toLower_eq (chars word : List Char) (small : word.all isSmallLetter = true) :
    chars.map Char.toLower = word ↔
      List.Forall₂ (fun c letter => c = letter ∨ c = Char.toUpper letter) chars word := by
  induction word generalizing chars with
  | nil => simp
  | cons letter rest ih =>
    rw [List.all_cons, Bool.and_eq_true] at small
    cases chars with
    | nil => simp
    | cons c chars =>
      rw [List.map_cons, List.cons.injEq, List.forall₂_cons, ih chars small.2,
        toLower_eq_letter c letter small.1]

theorem toLower_eq_iff (word name : String) (small : word.toList.all isSmallLetter = true) :
    name.toLower = word ↔ SpellsWord word name := by
  have lowered : name.toLower = name.map Char.toLower := rfl
  rw [lowered, ← String.toList_inj, String.toList_map]
  exact map_toLower_eq name.toList word.toList small

end BuildLang
