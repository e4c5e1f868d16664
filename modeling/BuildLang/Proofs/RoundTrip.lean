import BuildLang.Proofs.Acceptance
import BuildLang.Proofs.Layout.Files
import BuildLang.Proofs.Tree.Legal

/-!
# Printing and parsing

The text of a well-formed file is read back as the same file, sorted, and every
file that is ever read is alike to a well-formed one.
-/

set_option autoImplicit false

namespace BuildLang

theorem parseWith_ok (recovery : Recovery) (source : String) (file : BuildFile Position) :
    parseWith recovery source = .ok file ↔
      ∃ lexemes, lex source = .ok lexemes ∧ parseTokens recovery lexemes source = .ok file := by
  unfold parseWith
  cases lex source with
  | error diagnostics => simp [bind, Except.bind]
  | ok lexemes => simp [bind, Except.bind]

/-- A text that spells a derivation without surplus commas is read as its tree. -/
theorem parseWith_spelled (recovery : Recovery) (source : String) (form : FileForm)
    (spelled : Spells source.toList form.written.tokens)
    (clean : form.written.surplus 0 = []) :
    ∃ place, parseWith recovery source = .ok ((form.written.tree 0).mapPosition place) := by
  obtain ⟨lexemes, scanned, tokens⟩ := lex_of_spells source _ spelled
  have read : readTokens recovery (lexemes.map Lexeme.token) = ⟨some (form.written.tree 0), []⟩ :=
    (readTokens_forms recovery _ _).mpr ⟨form, tokens.symm, clean, rfl⟩
  have accepted := (parseTokens_ok recovery lexemes source _).mpr ⟨_, read, rfl⟩
  exact ⟨_, (parseWith_ok recovery source _).mpr ⟨lexemes, scanned, accepted⟩⟩

/-- Whatever is read is alike to a well-formed tree. -/
theorem parseWith_wellFormed (recovery : Recovery) (source : String) (file : BuildFile Position)
    (parsed : parseWith recovery source = .ok file) :
    ∃ tree : BuildFile Nat, tree.WellFormed ∧ file.bare = tree.bare := by
  obtain ⟨lexemes, scanned, accepted⟩ := (parseWith_ok recovery source file).mp parsed
  obtain ⟨tree, read, rfl⟩ := (parseTokens_ok recovery lexemes source file).mp accepted
  obtain ⟨form, tokens, _, rfl⟩ := (readTokens_forms recovery _ tree).mp read
  have legal : ∀ lexeme ∈ form.written.tokens, lexeme.Legal := by
    rw [tokens]
    exact lex_legal source lexemes scanned
  exact ⟨_, form.yields legal 0, BuildFile.bare_mapPosition _ _⟩

variable {π : Type}

/-- The text of a well-formed file leads back to the file in its order of printing. -/
theorem parseWith_canonical (recovery : Recovery) (file : BuildFile π) (legal : file.WellFormed)
    (indent : String) (blank : ∀ c ∈ indent.toList, Pattern.isBlank c = true) :
    ∃ tree, parseWith recovery (file.print ⟨.all, indent⟩) = .ok tree ∧
      tree.bare = file.sorted.bare := by
  have free : ∀ rule ∈ file.rules, rule.kind ∉ callNames :=
    fun rule member => (legal.rules rule member).free
  have stands := file.stands free
  have spelled := file.spells_print free legal indent blank
  obtain ⟨place, parsed⟩ := parseWith_spelled recovery _ _ spelled (stands.clean 0)
  refine ⟨_, parsed, ?_⟩
  rw [BuildFile.bare_mapPosition, stands.same]

/-- Printing a well-formed file and parsing the text gives the file back, but for
places, with its loads in the stable order of their labels and the symbols of each
load in the stable order of their imported names. -/
theorem parseWith_print (recovery : Recovery) (file : BuildFile π) (legal : file.WellFormed)
    (indent : String) (blank : ∀ c ∈ indent.toList, Pattern.isBlank c = true) :
    ∃ tree, parseWith recovery (file.print ⟨.all, indent⟩) = .ok tree ∧
      tree.bare = { file with loads := file.sortedLoads.map Load.sorted }.bare ∧
      StableSort Load.source file.loads file.sortedLoads ∧
      ∀ load ∈ file.loads,
        StableSort LoadedSymbol.symbol load.symbols load.sorted.symbols := by
  obtain ⟨tree, parsed, same⟩ := parseWith_canonical recovery file legal indent blank
  exact ⟨tree, parsed, same, file.sortedLoads_stable, fun load _ => load.sortedSymbols_stable⟩

/-- A file built by hand, its loads and symbols out of order. -/
def unsorted : BuildFile Empty where
  loads := [⟨"//b", [.plain "y" none, .renamed "z" "x" none], none⟩, ⟨"//a", [], none⟩]
  rules := [⟨"library", [⟨"name", .string ⟨"\"lib\"", none⟩, none⟩], none⟩]
  package := some {}

theorem unsorted_wellFormed : unsorted.WellFormed where
  loads := by
    intro load member
    simp only [unsorted, List.mem_cons, List.not_mem_nil, or_false] at member
    rcases member with rfl | rfl
    · refine ⟨by decide, ?_⟩
      intro symbol member
      simp only [List.mem_cons, List.not_mem_nil, or_false] at member
      rcases member with rfl | rfl
      · show Quotable "y"
        decide
      · exact ⟨by decide, by decide⟩
    · exact ⟨by decide, by simp⟩
  rules := by
    intro rule member
    obtain rfl := List.mem_singleton.mp member
    refine ⟨by decide, by decide, ?_⟩
    intro argument member
    obtain rfl := List.mem_singleton.mp member
    refine ⟨by decide, ?_⟩
    show (Token.string "\"lib\"").Legal
    decide
  declarations := by simp [unsorted]
  package := by
    intro package given slot value filled
    obtain rfl := Option.some.inj given
    cases slot <;> cases filled
  packageGroup := by simp [unsorted]
  exportsFiles := by simp [unsorted]

theorem parseWith_print_unsorted :
    unsorted.WellFormed ∧ (∀ c ∈ "\t".toList, Pattern.isBlank c = true) ∧
      ∃ tree, parseWith .off (unsorted.print ⟨.all, "\t"⟩) = .ok tree ∧
        tree.bare = { unsorted with loads := unsorted.sortedLoads.map Load.sorted }.bare := by
  have blank : ∀ c ∈ "\t".toList, Pattern.isBlank c = true := by simp [Pattern.isBlank]
  obtain ⟨tree, parsed, same, _⟩ := parseWith_print .off unsorted unsorted_wellFormed "\t" blank
  exact ⟨unsorted_wellFormed, blank, tree, parsed, same⟩

end BuildLang
