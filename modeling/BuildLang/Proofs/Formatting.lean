import BuildLang.Command
import BuildLang.Format
import BuildLang.Proofs.Layout.Bare
import BuildLang.Proofs.RoundTrip

/-!
# Formatting twice

What the formatter writes it leaves alone, and the indentation of what it reads
leaves no trace.
-/

set_option autoImplicit false

namespace BuildLang

theorem formatWith_ok (recovery : Recovery) (options : PrintOptions) (source text : String) :
    formatWith recovery options source = .ok text ↔
      ∃ file, parseWith recovery source = .ok file ∧ text = file.print options := by
  unfold formatWith
  cases parseWith recovery source with
  | error diagnostics => simp [Except.map]
  | ok file => simp [Except.map, eq_comm]

/-- The text of a well-formed file is formatted as the file itself is printed. -/
theorem formatWith_canonical {π : Type} (recovery : Recovery) (file : BuildFile π)
    (legal : file.WellFormed) (indent : String)
    (blank : ∀ c ∈ indent.toList, Pattern.isBlank c = true) (options : PrintOptions) :
    formatWith recovery options (file.print ⟨.all, indent⟩) = .ok (file.print options) := by
  obtain ⟨tree, parsed, same⟩ := parseWith_canonical recovery file legal indent blank
  refine (formatWith_ok recovery options _ _).mpr ⟨tree, parsed, ?_⟩
  rw [BuildFile.print_congr options tree file.sorted same, BuildFile.print_sorted]

/-- Every formatted text is the whole text of some well-formed file, and unless only
the loads were written, that file is alike to the one that was read. -/
theorem formatWith_wellFormed (recovery : Recovery) (scope : PrintScope) (indent : String)
    (source text : String) (formatted : formatWith recovery ⟨scope, indent⟩ source = .ok text) :
    ∃ file : BuildFile Nat, file.WellFormed ∧ text = file.print ⟨.all, indent⟩ ∧
      (scope = .all → ∀ options,
        formatWith recovery options source = .ok (file.print options)) := by
  obtain ⟨file, parsed, rfl⟩ := (formatWith_ok recovery _ source text).mp formatted
  obtain ⟨tree, legal, same⟩ := parseWith_wellFormed recovery source file parsed
  cases scope with
  | all =>
    refine ⟨tree, legal, BuildFile.print_congr _ _ _ same, ?_⟩
    intro _ options
    exact (formatWith_ok recovery options source _).mpr
      ⟨file, parsed, (BuildFile.print_congr options _ _ same).symm⟩
  | loads =>
    -- The load block is the whole text of the file without its other parts.
    refine ⟨tree.onlyLoads, ⟨legal.loads, by simp [BuildFile.onlyLoads],
      by simp [BuildFile.onlyLoads], by simp [BuildFile.onlyLoads],
      by simp [BuildFile.onlyLoads], by simp [BuildFile.onlyLoads]⟩, ?_, ?_⟩
    · rw [BuildFile.print_congr _ _ _ same, BuildFile.printLoads_onlyLoads]
      rfl
    · intro wrong
      cases wrong

/-- A formatted text is left as it is: formatting it again with the same indent
changes nothing, a check finds nothing to complain about, and formatting it with
another indent gives what that gives for the source. -/
theorem formatWith_formatWith (source text : String) (first second : Recovery)
    (scope : PrintScope) (indent other : String)
    (blank : ∀ c ∈ indent.toList, Pattern.isBlank c = true)
    (formatted : formatWith first ⟨scope, indent⟩ source = .ok text) :
    formatWith second ⟨.all, indent⟩ text = .ok text ∧
      (scope = .all →
        formatWith second ⟨.all, other⟩ text = formatWith first ⟨.all, other⟩ source) ∧
      ∀ read : FileReader, ∀ settings path, read path = .ok text → settings.indent = indent →
        Command.format read settings path true = .success "" := by
  obtain ⟨file, legal, rfl, whole⟩ := formatWith_wellFormed first scope indent source text formatted
  have again (recovery : Recovery) := formatWith_canonical recovery file legal indent blank
  refine ⟨again second _, ?_, ?_⟩
  · intro all
    rw [again second, whole all]
  · rintro read settings path found rfl
    have accepted := again settings.recovery ⟨.all, settings.indent⟩
    simp [Command.format, found, accepted]

theorem ok_of_toOption {ε α : Type} (result : Except ε α) (value : α)
    (found : result.toOption = some value) : result = .ok value := by
  cases result with
  | error fault => cases found
  | ok other => exact congrArg Except.ok (Option.some.inj found)

theorem formatWith_formatWith_rule :
    formatWith .on ⟨.all, "  "⟩ "r(a=[1],b=x)" = .ok "r(\n  a = [1],\n  b = x\n)\n" ∧
      formatWith .off ⟨.all, "\t"⟩ "r(\n  a = [1],\n  b = x\n)\n" =
        formatWith .on ⟨.all, "\t"⟩ "r(a=[1],b=x)" := by
  have formatted : formatWith .on ⟨.all, "  "⟩ "r(a=[1],b=x)" =
      .ok "r(\n  a = [1],\n  b = x\n)\n" :=
    ok_of_toOption _ _ (by decide +kernel)
  have settled := formatWith_formatWith _ _ .on .off .all "  " "\t" (by simp [Pattern.isBlank]) formatted
  exact ⟨formatted, settled.2.1 rfl⟩

end BuildLang
