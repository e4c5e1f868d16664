import BuildLang.Proofs.Layout.Bare
import BuildLang.Proofs.Text.ByteOrder
import Mathlib.Data.List.Forall2

/-!
# The order of loads

The printer sorts loads by their labels and the symbols of a load by the names
they are imported by.  With no name twice there is one such order, so the order
in the file leaves no trace in the text.
-/

set_option autoImplicit false

namespace BuildLang

variable {π ρ : Type}

/-! ## Files that differ in the order of their loads -/

/-- The loads import the same symbols from the same label, maybe in another order. -/
structure Load.Reorders (first : Load π) (second : Load ρ) : Prop where
  source : first.source = second.source
  symbols : (first.symbols.map LoadedSymbol.bare).Perm (second.symbols.map LoadedSymbol.bare)

/-- The files are the same but for places, the order of their loads and the order of
the symbols within a load. -/
structure BuildFile.Reorders (file : BuildFile π) (other : BuildFile ρ) : Prop where
  loads : ∃ middle, file.loads.Perm middle ∧ List.Forall₂ Load.Reorders middle other.loads
  rest : { file.bare with loads := [] } = { other.bare with loads := [] }

/-- No label comes twice, and no imported name comes twice in one load. -/
structure BuildFile.DistinctLoads (file : BuildFile π) : Prop where
  sources : (file.loads.map Load.source).Nodup
  symbols : ∀ load ∈ file.loads, (load.symbols.map LoadedSymbol.symbol).Nodup

namespace Load

theorem symbols_bare (load : Load π) :
    load.bare.symbols.map LoadedSymbol.symbol = load.symbols.map LoadedSymbol.symbol := by
  rw [bare, List.map_map]
  refine List.map_congr_left ?_
  intro symbol _
  cases symbol <;> rfl

theorem Reorders.sorted_bare {first : Load π} {second : Load ρ} (same : first.Reorders second)
    (distinct : (first.symbols.map LoadedSymbol.symbol).Nodup) :
    first.bare.sorted = second.bare.sorted := by
  have symbols : first.bare.sortedSymbols = second.bare.sortedSymbols := by
    refine mergeSort_eq_of_perm LoadedSymbol.symbol _ _ same.symbols ?_
    rw [symbols_bare]
    exact distinct
  have label := same.source
  simp only [sorted, symbols]
  simp only [bare, label]

theorem Reorders.sorted_bare_all {loads : List (Load π)} {others : List (Load ρ)}
    (paired : List.Forall₂ Load.Reorders loads others)
    (distinct : ∀ load ∈ loads, (load.symbols.map LoadedSymbol.symbol).Nodup) :
    loads.map (fun load => load.bare.sorted) = others.map fun load => load.bare.sorted := by
  induction paired with
  | nil => rfl
  | cons pair _ ih =>
    have front := pair.sorted_bare (distinct _ (by simp))
    have back := ih (fun load member => distinct load (by simp [member]))
    rw [List.map_cons, List.map_cons, front, back]

end Load

namespace BuildFile

/-- Sorting leaves nothing of the order of the loads and of their symbols. -/
theorem Reorders.sorted_bare {file : BuildFile π} {other : BuildFile ρ}
    (same : file.Reorders other) (distinct : file.DistinctLoads) :
    file.bare.sorted = other.bare.sorted := by
  obtain ⟨middle, rearranged, paired⟩ := same.loads
  have each := Load.Reorders.sorted_bare_all paired
    (fun load member => distinct.symbols load (rearranged.mem_iff.mpr member))
  have loads : (file.loads.map fun load => load.bare.sorted).Perm
      (other.loads.map fun load => load.bare.sorted) := by
    rw [← each]
    exact rearranged.map _
  have labels : ((file.loads.map fun load => load.bare.sorted).map Load.source).Nodup := by
    rw [List.map_map]
    exact distinct.sources
  have order := mergeSort_eq_of_perm Load.source _ _ loads labels
  have sortedLoads : file.bare.sortedLoads.map Load.sorted =
      other.bare.sortedLoads.map Load.sorted := by
    rw [sortedLoads_map, sortedLoads_map]
    simpa [bare, Function.comp_def] using order
  rw [sorted, sorted, sortedLoads]
  exact congrArg (fun rest => { rest with loads := other.bare.sortedLoads.map Load.sorted })
    same.rest

theorem Reorders.print_eq {file : BuildFile π} {other : BuildFile ρ}
    (same : file.Reorders other) (distinct : file.DistinctLoads) (options : PrintOptions) :
    file.print options = other.print options := by
  rw [← print_bare options file, ← print_sorted, same.sorted_bare distinct, print_sorted,
    print_bare]

end BuildFile

/-! ## The text of the loads -/

/-- An entry of a load: the name in quotes, and in front of it the one it has here if that is
another. -/
inductive LoadedSymbol.WrittenAs : LoadedSymbol π → String → Prop where
  | plain (symbol : String) (position : Option π) :
      WrittenAs (.plain symbol position) ("\"" ++ symbol ++ "\"")
  | renamed (name symbol : String) (position : Option π) :
      WrittenAs (.renamed name symbol position) (name ++ " = \"" ++ symbol ++ "\"")

/-- The line of a load: its label, and all its symbols in ascending order of the bytes of
the names they are imported by, whatever they are called here. -/
structure Load.WrittenAs (load : Load π) (line : String) : Prop where
  entries : ∃ (symbols : List (LoadedSymbol π)) (entries : List String),
    symbols.Perm load.symbols ∧
    symbols.Pairwise (fun first second => utf8Bytes first.symbol < utf8Bytes second.symbol) ∧
    List.Forall₂ LoadedSymbol.WrittenAs symbols entries ∧
    line = "load(\"" ++ load.source ++ "\", " ++ ", ".intercalate entries ++ ")"
  unbroken : '\n' ∈ line.toList → '\n' ∈ load.source.toList ∨
    ∃ symbol ∈ load.symbols, '\n' ∈ symbol.symbol.toList ∨ '\n' ∈ symbol.localName.toList

theorem LoadedSymbol.writtenAs_text (symbol : LoadedSymbol π) : symbol.WrittenAs symbol.text := by
  cases symbol with
  | plain symbol position => exact .plain symbol position
  | renamed name symbol position =>
    have same : (renamed name symbol position).text = name ++ " = \"" ++ symbol ++ "\"" := by
      simp [text, quoted, ← String.toList_inj]
    exact same ▸ .renamed name symbol position

theorem LoadedSymbol.unbroken (symbol : LoadedSymbol π) (broken : '\n' ∈ symbol.text.toList) :
    '\n' ∈ symbol.symbol.toList ∨ '\n' ∈ symbol.localName.toList := by
  cases symbol with
  | plain symbol position => simpa [text, quoted, LoadedSymbol.symbol, localName] using broken
  | renamed name symbol position =>
    simpa [text, quoted, LoadedSymbol.symbol, localName, or_comm] using broken

theorem Load.writtenAs_text (load : Load π)
    (distinct : (load.symbols.map LoadedSymbol.symbol).Nodup) : load.WrittenAs load.text where
  entries := by
    refine ⟨load.sortedSymbols, load.sortedSymbols.map LoadedSymbol.text,
      load.sortedSymbols_stable.permutation, ?_, ?_, ?_⟩
    · refine (load.sortedSymbols_stable.strictly distinct).imp ?_
      intro first second below
      exact (lt_iff_utf8Bytes _ _).mp below
    · rw [List.forall₂_map_right_iff, List.forall₂_same]
      exact fun symbol _ => symbol.writtenAs_text
    · simp [text, quoted, ← String.toList_inj]
  unbroken := by
    intro broken
    have inside : '\n' ∈ load.source.toList ∨
        '\n' ∈ (", ".intercalate (load.sortedSymbols.map LoadedSymbol.text)).toList := by
      simpa only [text, quoted, String.toList_append, List.mem_append, String.reduceToList,
        List.mem_cons, List.not_mem_nil, or_false, false_or, Char.reduceEq] using broken
    refine inside.imp_right ?_
    intro listed
    rcases mem_intercalate _ _ _ listed with parting | ⟨_, listing, written⟩
    · exact absurd parting (by decide)
    · obtain ⟨symbol, member, rfl⟩ := List.mem_map.mp listing
      exact ⟨symbol, List.mem_mergeSort.mp member, symbol.unbroken written⟩

/-- The text of the loads is a line for each of them. -/
theorem BuildFile.printLoads_lines (file : BuildFile π) :
    file.printLoads =
      String.join ((file.sortedLoads.map Load.text).map fun line => line ++ "\n") := by
  have lines : file.layoutLoads = file.sortedLoads.map fun load => ⟨0, load.text⟩ :=
    List.map_eq_flatMap.symm
  rw [printLoads_eq, Line.renderAll, lines]
  simp [Line.render_eq, Function.comp_def]

/-! ## The loads in front of the file -/

/-- The file without its loads. -/
def BuildFile.withoutLoads (file : BuildFile π) : BuildFile π :=
  { file with loads := [] }

/-- The text of a file starts with the text of its loads. -/
theorem BuildFile.print_loads_first (file : BuildFile π) (indent : String) :
    ∃ gap, (gap = "" ∨ gap = "\n") ∧ file.print ⟨.all, indent⟩ =
      file.printLoads ++ gap ++ file.withoutLoads.print ⟨.all, indent⟩ := by
  have parted := Line.sections_cons file.layoutLoads file.layoutSections.tail
  have front : file.layout = Line.sections (file.layoutLoads :: file.layoutSections.tail) := rfl
  have back : file.withoutLoads.layout = Line.sections file.layoutSections.tail := by
    simp [layout, layoutSections, layoutLoads, sortedLoads, withoutLoads, Line.sections]
  have loads : Line.renderAll indent file.layoutLoads = file.printLoads := by
    rw [printLoads_eq, renderAll_flat indent _ file.layoutLoads_flat]
  rw [← front, ← back] at parted
  rw [print_eq, print_eq, parted, ← loads]
  by_cases none : file.layoutLoads = []
  · rw [if_pos none, none]
    exact ⟨"", .inl rfl, by simp [Line.renderAll]⟩
  rw [if_neg none]
  by_cases alone : file.withoutLoads.layout = []
  · rw [if_pos alone, alone]
    exact ⟨"", .inl rfl, by simp [Line.renderAll]⟩
  · rw [if_neg alone, Line.renderAll_append, Line.renderAll_append]
    exact ⟨"\n", .inr rfl, rfl⟩

/-- The order of the loads and of their symbols makes no difference to any text: each load
is one line, the lines stand in ascending order of the bytes of their labels, and all that
is not a load follows. -/
theorem print_reordered (file : BuildFile π) (other : BuildFile ρ) (same : file.Reorders other)
    (distinct : file.DistinctLoads) :
    (∀ options, file.print options = other.print options) ∧
      file.printLoads = other.printLoads ∧
      (∃ (loads : List (Load π)) (lines : List String), loads.Perm file.loads ∧
        loads.Pairwise
          (fun first second => utf8Bytes first.source < utf8Bytes second.source) ∧
        List.Forall₂ Load.WrittenAs loads lines ∧
        file.printLoads = String.join (lines.map fun line => line ++ "\n")) ∧
      ∀ indent, file.print ⟨.loads, indent⟩ = file.printLoads ∧
        ∃ gap, (gap = "" ∨ gap = "\n") ∧ file.print ⟨.all, indent⟩ =
          file.printLoads ++ gap ++ file.withoutLoads.print ⟨.all, indent⟩ := by
  refine ⟨same.print_eq distinct, same.print_eq distinct ⟨.loads, ""⟩, ?_, ?_⟩
  · have ascending := file.sortedLoads_stable.strictly distinct.sources
    refine ⟨file.sortedLoads, file.sortedLoads.map Load.text,
      file.sortedLoads_stable.permutation, ?_, ?_, file.printLoads_lines⟩
    · refine ascending.imp ?_
      intro first second below
      exact (lt_iff_utf8Bytes _ _).mp below
    · rw [List.forall₂_map_right_iff, List.forall₂_same]
      intro load member
      exact load.writtenAs_text (distinct.symbols load (List.mem_mergeSort.mp member))
  · intro indent
    exact ⟨rfl, file.print_loads_first indent⟩

/-- A symbol whose alias comes last and whose name comes first. -/
def aliased : BuildFile Empty where
  loads := [⟨"//b", [.plain "beta" none, .renamed "z" "alpha" none], none⟩,
    ⟨"//a", [.plain "y" none], none⟩]
  package := some {}

def aliasedAgain : BuildFile Empty where
  loads := [⟨"//a", [.plain "y" none], none⟩,
    ⟨"//b", [.renamed "z" "alpha" none, .plain "beta" none], none⟩]
  package := some {}

theorem aliased_reorders : aliased.Reorders aliasedAgain where
  loads := by
    refine ⟨aliased.loads.reverse, (List.reverse_perm _).symm, ?_⟩
    exact .cons ⟨rfl, by decide⟩ (.cons ⟨rfl, by decide⟩ .nil)
  rest := rfl

theorem aliased_distinct : aliased.DistinctLoads :=
  ⟨by decide, by decide⟩

theorem print_reordered_aliased :
    aliased.Reorders aliasedAgain ∧ aliased.DistinctLoads ∧
      aliased.print ⟨.all, "  "⟩ = aliasedAgain.print ⟨.all, "  "⟩ ∧
      aliased.printLoads = aliasedAgain.printLoads := by
  have reordered := print_reordered aliased aliasedAgain aliased_reorders aliased_distinct
  exact ⟨aliased_reorders, aliased_distinct, reordered.1 ⟨.all, "  "⟩, reordered.2.1⟩

end BuildLang
