import BuildLang.Proofs.Formatting
import BuildLang.Proofs.Layout.Passages

/-!
# Clean texts

The text of whatever is read is clean under every indentation: the lines and how deep they
stand are fixed before the first one is indented.
-/

set_option autoImplicit false

namespace BuildLang

theorem BuildFile.layout_congr {π ρ : Type} (file : BuildFile π) (other : BuildFile ρ)
    (same : file.bare = other.bare) : file.layout = other.layout := by
  rw [layout, layout, ← layoutSections_bare file, same, layoutSections_bare]

/-- A file that is read has clean lines that the indentation has no part in: it is written in
front of a line as often as the line is deep, and not at all in front of an empty one.  The
file that holds nothing has no text. -/
theorem print_clean (recovery : Recovery) (source : String) (file : BuildFile Position)
    (parsed : parseWith recovery source = .ok file) :
    ∃ lines : List Line, Clean lines ∧
      (∀ indent, file.print ⟨.all, indent⟩ = String.join (lines.map fun line =>
        (if line.text = "" then "" else String.join (List.replicate line.depth indent)) ++
          line.text ++ "\n")) ∧
      (file.isEmpty = true → lines = [] ∧ ∀ options, file.print options = "") := by
  obtain ⟨tree, legal, same⟩ := parseWith_wellFormed recovery source file parsed
  have clean : Clean file.layout := by
    rw [file.layout_congr tree same]
    exact tree.clean_layout legal
  refine ⟨file.layout, clean, ?_, ?_⟩
  · intro indent
    simp only [← Line.render_eq]
    exact file.print_eq indent
  · intro empty
    rw [file.eq_empty empty]
    exact ⟨BuildFile.layout_empty, BuildFile.print_empty⟩

theorem print_clean_nested : ∃ file lines,
    parseWith .on "x=\x7b\"a\":select(\x7b\"b\":[1]\x7d)\x7d r()" = .ok file ∧ Clean lines ∧
      file.print ⟨.all, "  "⟩ =
        "x = \x7b\n  \"a\": select(\x7b\n    \"b\": [1],\n  \x7d),\n\x7d\n\nr()\n" ∧
      file.print ⟨.all, "  "⟩ = String.join (lines.map fun line =>
        (if line.text = "" then "" else String.join (List.replicate line.depth "  ")) ++
          line.text ++ "\n") := by
  have formatted : formatWith .on ⟨.all, "  "⟩ "x=\x7b\"a\":select(\x7b\"b\":[1]\x7d)\x7d r()" =
      .ok "x = \x7b\n  \"a\": select(\x7b\n    \"b\": [1],\n  \x7d),\n\x7d\n\nr()\n" :=
    ok_of_toOption _ _ (by decide +kernel)
  obtain ⟨file, parsed, text⟩ := (formatWith_ok _ _ _ _).mp formatted
  obtain ⟨lines, clean, written, _⟩ := print_clean .on _ file parsed
  exact ⟨file, lines, parsed, clean, text.symm, written "  "⟩

end BuildLang
