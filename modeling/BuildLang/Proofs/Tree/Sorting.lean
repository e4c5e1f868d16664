import BuildLang.Layout.File
import BuildLang.Proofs.Tree.Bare
import Mathlib.Data.List.Nodup

/-!
# Sorted files

The printer writes loads and symbols in the order of their names.  Sorting is
stable, it sorts what is sorted no further, and it reads nothing but the names.
-/

set_option autoImplicit false

namespace BuildLang

section

variable {α β : Type}

/-- The items in ascending order of their keys, those with the same key in the
order they had. -/
structure StableSort (key : α → String) (items sorted : List α) : Prop where
  permutation : sorted.Perm items
  ascending : sorted.Pairwise fun first second => key first ≤ key second
  stable : ∀ text, sorted.filter (fun item => key item = text) =
    items.filter (fun item => key item = text)

def notAbove (key : α → String) (first second : α) : Bool :=
  key first ≤ key second

theorem notAbove_trans (key : α → String) (first second third : α)
    (left : notAbove key first second = true) (right : notAbove key second third = true) :
    notAbove key first third = true := by
  simp only [notAbove, decide_eq_true_eq] at left right ⊢
  exact String.le_trans left right

theorem notAbove_total (key : α → String) (first second : α) :
    (notAbove key first second || notAbove key second first) = true := by
  simp only [notAbove, Bool.or_eq_true, decide_eq_true_eq]
  exact String.le_total (key first) (key second)

theorem stableSort_mergeSort (key : α → String) (items : List α) :
    StableSort key items (items.mergeSort (notAbove key)) where
  permutation := List.mergeSort_perm items (notAbove key)
  ascending := by
    have sorted := List.pairwise_mergeSort (notAbove_trans key) (notAbove_total key) items
    simpa [notAbove] using sorted
  stable := by
    intro text
    -- Items with one key are in order already, so sorting keeps them as a sublist.
    have alike : (items.filter fun item => key item = text).Pairwise
        fun first second => notAbove key first second = true := by
      rw [List.pairwise_filter]
      refine List.pairwise_of_forall ?_
      intro first second left right
      simp only [decide_eq_true_eq] at left right
      simp [notAbove, left, right]
    have kept := List.sublist_mergeSort (notAbove_trans key) (notAbove_total key) alike
      List.filter_sublist
    have inside := kept.filter fun item => key item = text
    rw [List.filter_filter] at inside
    simp only [Bool.and_self] at inside
    have counted := ((List.mergeSort_perm items (notAbove key)).filter
      fun item => key item = text).length_eq
    exact (inside.eq_of_length counted.symm).symm

theorem mergeSort_idempotent (key : α → String) (items : List α) :
    (items.mergeSort (notAbove key)).mergeSort (notAbove key) =
      items.mergeSort (notAbove key) :=
  List.mergeSort_of_pairwise
    (List.pairwise_mergeSort (notAbove_trans key) (notAbove_total key) items)

/-- Items that no key comes twice in have one order only. -/
theorem mergeSort_eq_of_perm (key : α → String) (items others : List α)
    (same : items.Perm others) (distinct : (items.map key).Nodup) :
    items.mergeSort (notAbove key) = others.mergeSort (notAbove key) := by
  have first := stableSort_mergeSort key items
  have second := stableSort_mergeSort key others
  have rearranged := first.permutation.trans (same.trans second.permutation.symm)
  refine rearranged.eq_of_pairwise ?_ first.ascending second.ascending
  intro left right member other below above
  have leftInside := first.permutation.mem_iff.mp member
  have rightInside := (same.trans second.permutation.symm).mem_iff.mpr other
  exact List.inj_on_of_nodup_map distinct leftInside rightInside
    (String.le_antisymm below above)

theorem StableSort.strictly {key : α → String} {items sorted : List α}
    (order : StableSort key items sorted) (distinct : (items.map key).Nodup) :
    sorted.Pairwise fun first second => key first < key second := by
  have apart : (sorted.map key).Nodup := (order.permutation.map key).nodup_iff.mpr distinct
  rw [List.Nodup, List.pairwise_map] at apart
  refine (order.ascending.and apart).imp ?_
  intro first second ⟨below, differ⟩
  refine Decidable.byContradiction ?_
  intro notBelow
  exact differ (String.le_antisymm below (String.not_lt.mp notBelow))

theorem map_mergeSort_key (key : α → String) (other : β → String) (f : α → β)
    (same : ∀ item, other (f item) = key item) (items : List α) :
    (items.mergeSort (notAbove key)).map f = (items.map f).mergeSort (notAbove other) := by
  apply List.map_mergeSort
  intro first _ second _
  simp only [notAbove, same]

end

variable {π : Type}

namespace Load

def sorted (load : Load π) : Load π :=
  { load with symbols := load.sortedSymbols }

theorem sortedSymbols_stable (load : Load π) :
    StableSort LoadedSymbol.symbol load.symbols load.sortedSymbols :=
  stableSort_mergeSort LoadedSymbol.symbol load.symbols

theorem sortedSymbols_sorted (load : Load π) :
    load.sorted.sortedSymbols = load.sortedSymbols :=
  mergeSort_idempotent LoadedSymbol.symbol load.symbols

theorem sorted_sorted (load : Load π) : load.sorted.sorted = load.sorted :=
  congrArg (fun symbols => { load with symbols }) load.sortedSymbols_sorted

theorem sortedSymbols_bare (load : Load π) :
    load.bare.sortedSymbols = load.sortedSymbols.map LoadedSymbol.bare :=
  (map_mergeSort_key LoadedSymbol.symbol LoadedSymbol.symbol (LoadedSymbol.bare (π := π))
    (by intro symbol; cases symbol <;> rfl) load.symbols).symm

end Load

namespace BuildFile

/-- The file in the order it is printed in. -/
def sorted (file : BuildFile π) : BuildFile π :=
  { file with loads := file.sortedLoads.map Load.sorted }

theorem sortedLoads_stable (file : BuildFile π) :
    StableSort Load.source file.loads file.sortedLoads :=
  stableSort_mergeSort Load.source file.loads

theorem sortedLoads_map (file : BuildFile π) :
    file.sortedLoads.map Load.sorted =
      (file.loads.map Load.sorted).mergeSort (notAbove Load.source) :=
  map_mergeSort_key Load.source Load.source Load.sorted (fun _ => rfl) file.loads

theorem sortedLoads_sorted (file : BuildFile π) :
    file.sorted.sortedLoads = file.sortedLoads.map Load.sorted := by
  have loads : file.sorted.sortedLoads =
      (file.sortedLoads.map Load.sorted).mergeSort (notAbove Load.source) := rfl
  rw [loads, sortedLoads_map]
  exact mergeSort_idempotent Load.source _

theorem sorted_sorted (file : BuildFile π) : file.sorted.sorted = file.sorted := by
  have loads : file.sorted.sortedLoads.map Load.sorted = file.sortedLoads.map Load.sorted := by
    rw [sortedLoads_sorted, List.map_map]
    exact List.map_congr_left fun load _ => load.sorted_sorted
  exact congrArg (fun loads => { file with loads }) loads

theorem sortedLoads_bare (file : BuildFile π) :
    file.bare.sortedLoads = file.sortedLoads.map Load.bare :=
  (map_mergeSort_key Load.source Load.source (Load.bare (π := π)) (fun _ => rfl) file.loads).symm

end BuildFile

end BuildLang
