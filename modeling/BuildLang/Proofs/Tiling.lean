/-!
# Tilings

Intervals that follow one another without a gap.  The steps of a reading tile its
tokens in this way, and the regions of a source its bytes.
-/

set_option autoImplicit false

namespace BuildLang

/-- The first interval begins at `start`, each further one where the one before it
ends, and the last ends at `stop`; none of them is empty. -/
inductive Tiles : Nat → List (Nat × Nat) → Nat → Prop where
  | nil {start : Nat} : Tiles start [] start
  | cons {start middle stop : Nat} {others : List (Nat × Nat)} (some : start < middle)
      (rest : Tiles middle others stop) : Tiles start ((start, middle) :: others) stop

namespace Tiles

variable {start stop : Nat} {intervals : List (Nat × Nat)}

theorem of_cons {interval : Nat × Nat} (tiles : Tiles start (interval :: intervals) stop) :
    interval.1 = start ∧ start < interval.2 ∧ Tiles interval.2 intervals stop := by
  cases tiles with
  | cons some rest => exact ⟨rfl, some, rest⟩

theorem start_le (tiles : Tiles start intervals stop) : start ≤ stop := by
  induction tiles with
  | nil => exact Nat.le_refl _
  | cons some _ ih => exact Nat.le_trans (Nat.le_of_lt some) ih

theorem bounds (tiles : Tiles start intervals stop) :
    ∀ interval ∈ intervals,
      start ≤ interval.1 ∧ interval.1 < interval.2 ∧ interval.2 ≤ stop := by
  induction tiles with
  | nil => simp
  | @cons start middle stop others some rest ih =>
    intro interval member
    rcases List.mem_cons.mp member with rfl | later
    · exact ⟨Nat.le_refl _, some, rest.start_le⟩
    · obtain ⟨low, inside, high⟩ := ih interval later
      exact ⟨by omega, inside, high⟩

/-- No two intervals overlap. -/
theorem ordered (tiles : Tiles start intervals stop) :
    intervals.Pairwise fun first second => first.2 ≤ second.1 := by
  induction tiles with
  | nil => exact .nil
  | cons some rest ih =>
    refine List.pairwise_cons.mpr ⟨?_, ih⟩
    intro later member
    exact (rest.bounds later member).1

/-- Each begins behind the ones before it. -/
theorem ascending (tiles : Tiles start intervals stop) :
    intervals.Pairwise fun first second => first.1 < second.1 := by
  induction tiles with
  | nil => exact .nil
  | cons some rest ih =>
    refine List.pairwise_cons.mpr ⟨?_, ih⟩
    intro later member
    exact Nat.lt_of_lt_of_le some (rest.bounds later member).1

end Tiles

end BuildLang
