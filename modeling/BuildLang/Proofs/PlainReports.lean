import BuildLang.Proofs.CommaReports
import BuildLang.Proofs.Grammar.Strays
import BuildLang.Proofs.Recovery
import BuildLang.Proofs.Reports

/-!
# How much plain reading reports

Without recovery, reading stops at the first place where no statement can be read.  What it
reports may still be more than one thing: the stray commas it got past on the way are
reported with the place where it stops, and if nothing else is wrong, so is every statement
that stands too late.  The number of reports is known exactly, and so is when it is one.
-/

set_option autoImplicit false

namespace BuildLang

open BuildLang.Parser

/-- The token is a comma that no item follows: what ends a list stands behind it. -/
def StrayComma (tokens : List Token) (index : Nat) : Prop :=
  tokens[index]? = some .comma ∧ ∃ closing ∈ tokens[index + 1]?, closing.isClosing = true

/-- Plain reading takes these steps, gets past these commas on the way, and stops where no
further step can be taken. -/
structure PlainReading (tokens : List Token) (steps : List Step) (commas : List Nat)
    (stop : Cursor) : Prop where
  reads : ∃ faults, Repeats (documentStep .off) (.start tokens) faults steps stop ∧
    faults.map Fault.start = commas
  stops : ∃ fault, (documentStep .off stop).outcome = .error fault
  ascending : commas.Pairwise (· < ·)
  stray : ∀ comma ∈ commas, StrayComma tokens comma

/-- How much is reported of a plain reading.  Statements out of place are told only where
the input was read to its end and no comma was told. -/
def reportCount (steps : List Step) (commas : List Nat) (stop : Cursor) : Nat :=
  if stop.rest ≠ [] then commas.length + 1
  else if commas ≠ [] then commas.length
  else (misplacedSteps steps).length

theorem Strays.comma_at {tokens : List Token} {next : Cursor} {faults : List Fault}
    (strays : Strays (.start tokens) next faults) :
    ∀ comma ∈ faults.map Fault.start, StrayComma tokens comma := by
  rw [List.forall_mem_map]
  intro fault member
  obtain ⟨front, closing, back, rest, closes, start⟩ := strays.stray fault member
  have tokens_eq : tokens = front ++ .comma :: closing :: back := rest
  have index : fault.start = front.length := by simpa [Cursor.start] using start
  rw [StrayComma, index, tokens_eq]
  exact ⟨by simp, closing, by simp, closes⟩

/-- Every token list has a plain reading, and what is remarked on it without recovery is as
much as its reading accounts for. -/
theorem plainReading_remarks (tokens : List Token) :
    ∃ steps commas stop, PlainReading tokens steps commas stop ∧
      (readTokens .off tokens).remarks.length = reportCount steps commas stop ∧
      ∀ comma ∈ commas, ∃ remark ∈ (readTokens .off tokens).remarks, remark.start = comma := by
  obtain ⟨⟨steps, hint, stop⟩, read⟩ :=
    manyFrom_ok (documentStep .off) (tokens.length + 1) none (.start tokens)
  obtain ⟨faults, same⟩ : ∃ faults, many (documentStep .off) (.start tokens) =
      ⟨faults, .ok ⟨steps, hint, stop⟩⟩ := ⟨_, congrArg (Reply.mk _) read⟩
  obtain ⟨repeats, ends⟩ :=
    (many_iff (takes_documentStep .off) (.start tokens) stop faults steps).mp ⟨hint, same⟩
  obtain ⟨strays, _⟩ := repeats.strays orderly_documentStep (takes_documentStep .off)
  have reading : PlainReading tokens steps (faults.map Fault.start) stop :=
    ⟨⟨faults, repeats, rfl⟩, ends, List.pairwise_map.mpr strays.ascending, strays.comma_at⟩
  refine ⟨steps, faults.map Fault.start, stop, reading, ?_⟩
  by_cases ended : stop.rest = []
  · have whole := readSteps_end .off tokens faults steps hint stop same ended
    by_cases silent : faults = []
    · subst silent
      have remarks : (readTokens .off tokens).remarks = (assemble steps).remarks := by
        simp [readTokens, whole]
      rw [remarks, ← (remarks_misplaced steps).length_eq]
      simp [reportCount, ended]
    · have remarks : (readTokens .off tokens).remarks = faults.map Fault.toRemark := by
        simp [readTokens, whole, silent]
      rw [remarks]
      refine ⟨by simp [reportCount, ended, silent], ?_⟩
      rw [List.forall_mem_map]
      exact fun fault member => ⟨_, List.mem_map_of_mem member, rfl⟩
  · obtain ⟨last, whole⟩ := readSteps_stuck .off tokens faults steps hint stop same ended
    have remarks : (readTokens .off tokens).remarks = (faults ++ [last]).map Fault.toRemark := by
      simp [readTokens, whole]
    rw [remarks]
    refine ⟨by simp [reportCount, ended], ?_⟩
    rw [List.forall_mem_map]
    exact fun fault member =>
      ⟨_, List.mem_map_of_mem (List.mem_append_left [last] member), rfl⟩

/-- A source is read if nothing is remarked on its tokens, else each remark is reported. -/
theorem parseWith_remarks (recovery : Recovery) (source : String)
    (lexed : lex source = .ok (tokenizeWithSpans source)) :
    ((readTokens recovery (tokenize source)).remarks = [] ∧
        ∃ file, parseWith recovery source = .ok file) ∨
      (readTokens recovery (tokenize source)).remarks ≠ [] ∧
        parseWith recovery source = .error (Diagnostic.sort
          ((readTokens recovery (tokenize source)).remarks.map
            (Remark.toDiagnostic (tokenPlace source)))) := by
  have whole : parseWith recovery source =
      (parseLexemes recovery (tokenizeWithSpans source) source).toExcept := by
    rw [parseWith, lexed]
    rfl
  have told : (parseLexemes recovery (tokenizeWithSpans source) source).diagnostics =
      Diagnostic.sort ((readTokens recovery (tokenize source)).remarks.map
        (Remark.toDiagnostic (tokenPlace source))) := rfl
  by_cases clean : (readTokens recovery (tokenize source)).remarks = []
  · refine .inl ⟨clean, ?_⟩
    have kept : (readTokens recovery (tokenize source)).file ≠ none :=
      fun lost => readTokens_told recovery _ lost clean
    obtain ⟨file, read⟩ := Option.ne_none_iff_exists'.mp kept
    have silent : (parseLexemes recovery (tokenizeWithSpans source) source).diagnostics = [] := by
      rw [told, clean]
      exact (sort_eq_nil []).mpr rfl
    have tree : (parseLexemes recovery (tokenizeWithSpans source) source).file =
        some (file.mapPosition (tokenPlace source)) :=
      congrArg (Option.map (BuildFile.mapPosition (tokenPlace source))) read
    exact ⟨_, by rw [whole, Parsed.toExcept, silent, tree]⟩
  · refine .inr ⟨clean, ?_⟩
    have loud := diagnostics_ne_nil recovery (tokenizeWithSpans source) source clean
    rw [whole, ← told]
    unfold Parsed.toExcept
    split
    · rename_i silent
      exact absurd silent loud
    · rfl

/-- What is reported of a source without recovery is counted by its plain reading: one report
for each stray comma that was got past, in the order of the commas, and one for the place
where reading stops short; or, if nothing of the kind is wrong, one for each statement that
stands too late.  So there is a tree or exactly one report unless that count is two or more. -/
theorem plain_reports (source : String) (lexemes : List Lexeme)
    (lexed : lex source = .ok lexemes) :
    ∃ steps commas stop, PlainReading (lexemes.map Lexeme.token) steps commas stop ∧
      ((∃ file, parseWith .off source = .ok file) ↔ reportCount steps commas stop = 0) ∧
      (∀ errors, parseWith .off source = .error errors →
        errors.length = reportCount steps commas stop ∧
          ∀ comma ∈ commas, ∃ diagnostic ∈ errors,
            diagnostic.position = some (tokenPlace source comma)) ∧
      (((∃ file, parseWith .off source = .ok file) ∨
          ∃ only, parseWith .off source = .error [only]) ↔ reportCount steps commas stop ≤ 1) := by
  obtain ⟨rfl, _⟩ := tokenize_lexed source lexemes lexed
  obtain ⟨steps, commas, stop, reading, counted, placed⟩ :=
    plainReading_remarks (tokenize source)
  refine ⟨steps, commas, stop, reading, ?_⟩
  rcases parseWith_remarks .off source lexed with ⟨clean, file, read⟩ | ⟨told, failed⟩
  · have zero : reportCount steps commas stop = 0 := by
      rw [← counted, clean]
      rfl
    simp [read, zero]
  · have positive : reportCount steps commas stop ≠ 0 := by
      rw [← counted]
      exact fun zero => told (List.eq_nil_of_length_eq_zero zero)
    have length : (Diagnostic.sort ((readTokens .off (tokenize source)).remarks.map
        (Remark.toDiagnostic (tokenPlace source)))).length = reportCount steps commas stop := by
      rw [Diagnostic.sort, List.length_mergeSort, List.length_map, counted]
    rw [failed]
    refine ⟨by simpa using positive, ?_, ?_⟩
    · rintro errors ⟨⟩
      refine ⟨length, ?_⟩
      intro comma member
      obtain ⟨remark, found, start⟩ := placed comma member
      refine ⟨remark.toDiagnostic (tokenPlace source), ?_, ?_⟩
      · exact List.mem_mergeSort.mpr (List.mem_map_of_mem found)
      · rw [Remark.toDiagnostic, start]
    · rw [← length] at positive ⊢
      constructor
      · rintro (⟨_, ⟨⟩⟩ | ⟨only, same⟩)
        rw [Except.error.inj same]
        exact Nat.le_refl 1
      · intro few
        have one := Nat.le_antisymm few (Nat.one_le_iff_ne_zero.mpr positive)
        obtain ⟨only, single⟩ := List.length_eq_one_iff.mp one
        exact .inr ⟨only, by rw [single]⟩

theorem parseWith_length (recovery : Recovery) (source : String) (count : Nat)
    (lexed : lex source = .ok (tokenizeWithSpans source))
    (told : (readTokens recovery (tokenize source)).remarks.length = count + 1) :
    ∃ errors, parseWith recovery source = .error errors ∧ errors.length = count + 1 := by
  rcases parseWith_remarks recovery source lexed with ⟨clean, _⟩ | ⟨_, failed⟩
  · rw [clean] at told
    cases told
  · refine ⟨_, failed, ?_⟩
    rw [Diagnostic.sort, List.length_mergeSort, List.length_map, told]

/-- A comma too many, and a statement behind it that cannot be read. -/
def commaThenStop : String := "x = [1,]\ny = )"

theorem plain_reports_comma_then_stop :
    lex commaThenStop = .ok (tokenizeWithSpans commaThenStop) ∧
      ∃ steps commas stop,
        PlainReading ((tokenizeWithSpans commaThenStop).map Lexeme.token) steps commas stop ∧
          reportCount steps commas stop = 2 := by
  have lexed : lex commaThenStop = .ok (tokenizeWithSpans commaThenStop) :=
    (lex_ok _ _).mpr ⟨by decide +kernel, rfl⟩
  obtain ⟨errors, failed, two⟩ := parseWith_length .off commaThenStop 1 lexed (by decide +kernel)
  obtain ⟨steps, commas, stop, reading, _, counted, _⟩ := plain_reports commaThenStop _ lexed
  exact ⟨lexed, steps, commas, stop, reading, (counted errors failed).1.symm.trans two⟩

/-- Two rules, each with a comma too many. -/
def endedRules : String := "r(name = \"x\",)\nr(name = \"y\",)"

/-- Two loads behind a declaration. -/
def lateLoads : String := "x = 1\nload(\"a\", \"b\")\nload(\"c\", \"d\")"

/-- Without recovery more than the first thing wrong is reported, be it commas or statements
out of place. -/
theorem plain_reports_several :
    (lex endedRules = .ok (tokenizeWithSpans endedRules) ∧
      ¬ ((∃ file, parseWith .off endedRules = .ok file) ∨
        ∃ only, parseWith .off endedRules = .error [only])) ∧
    lex lateLoads = .ok (tokenizeWithSpans lateLoads) ∧
      ¬ ((∃ file, parseWith .off lateLoads = .ok file) ∨
        ∃ only, parseWith .off lateLoads = .error [only]) := by
  have commas : lex endedRules = .ok (tokenizeWithSpans endedRules) :=
    (lex_ok _ _).mpr ⟨by decide +kernel, rfl⟩
  have loads : lex lateLoads = .ok (tokenizeWithSpans lateLoads) :=
    (lex_ok _ _).mpr ⟨by decide +kernel, rfl⟩
  obtain ⟨errors, failed, two⟩ := parseWith_length .off endedRules 1 commas (by decide +kernel)
  obtain ⟨reports, stopped, both⟩ := parseWith_length .off lateLoads 1 loads (by decide +kernel)
  rw [failed, stopped]
  refine ⟨⟨commas, ?_⟩, loads, ?_⟩
  · rintro (⟨_, ⟨⟩⟩ | ⟨only, same⟩)
    rw [Except.error.inj same] at two
    cases two
  · rintro (⟨_, ⟨⟩⟩ | ⟨only, same⟩)
    rw [Except.error.inj same] at both
    cases both

end BuildLang
