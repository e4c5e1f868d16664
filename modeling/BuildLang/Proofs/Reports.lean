import BuildLang.Proofs.Recovery
import BuildLang.Proofs.Spacing

/-!
# Reports

What a caller who is turned away is told.  Whichever stage rejects a source, there is
something to tell, it is told in the order of the source, and every diagnostic points
at a place that the source has.
-/

set_option autoImplicit false

namespace BuildLang

/-- A list of diagnostics that a caller can show: it is not empty, comes from one stage
alone, and runs along the source from place to place.  What the grammar complains about
is a token, or the end of input. -/
structure Presentable (source : String) (diagnostics : List Diagnostic) : Prop where
  told : diagnostics ≠ []
  kind : ∀ diagnostic ∈ diagnostics,
    diagnostic.kind = .lexical ↔ ∃ found, lex source = .error found
  placed : ∀ diagnostic ∈ diagnostics, ∃ place, diagnostic.position = some place ∧
    place = (LineIndex.ofSource source).position place.offset ∧
    place.offset ≤ source.utf8ByteSize
  ordered : diagnostics.Pairwise fun first second =>
    ∀ place ∈ first.position, ∀ later ∈ second.position, place.offset ≤ later.offset
  atToken : ∀ diagnostic ∈ diagnostics, diagnostic.kind = .grammatical →
    ∀ place ∈ diagnostic.position, place.offset = source.utf8ByteSize ∨
      ∃ lexeme ∈ tokenizeWithSpans source, place.offset = lexeme.start

/-! ## Places -/

/-- Lines and columns follow from the offset alone. -/
theorem position_position (lines : LineIndex) (offset : Nat) :
    lines.position offset = lines.position (lines.position offset).offset := by
  have inside : (lines.position offset).offset = min offset lines.size := rfl
  have bounded : min (min offset lines.size) lines.size = min offset lines.size :=
    Nat.min_eq_left (Nat.min_le_right _ _)
  rw [inside]
  simp only [LineIndex.position, bounded]

theorem position_offset_le (source : String) (offset : Nat) :
    ((LineIndex.ofSource source).position offset).offset ≤ source.utf8ByteSize := by
  rw [← ofSource_size]
  exact Nat.min_le_right _ _

/-- The place of an index is that of a token or of the end of input. -/
theorem tokenPlace_cases (source : String) (index : Nat) :
    ∃ offset, tokenPlace source index = (LineIndex.ofSource source).position offset ∧
      ((tokenPlace source index).offset = source.utf8ByteSize ∨
        ∃ lexeme ∈ tokenizeWithSpans source, (tokenPlace source index).offset = lexeme.start) := by
  by_cases inside : index < (tokenizeWithSpans source).length
  · have found : (tokenizeWithSpans source)[index]? = some (tokenizeWithSpans source)[index] :=
      List.getElem?_eq_getElem inside
    refine ⟨(tokenizeWithSpans source)[index].start, ?_, .inr ⟨_, List.getElem_mem inside, ?_⟩⟩
    · simp [tokenPlace, tokenPosition, found]
    · exact tokenPlace_inside source index _ found
  · have behind := tokenPlace_behind source index (Nat.le_of_not_lt inside)
    refine ⟨source.utf8ByteSize, behind, .inl ?_⟩
    rw [behind, position_offset source _ (Nat.le_refl _)]

/-! ## The two stages -/

theorem sort_ordered (diagnostics : List Diagnostic) :
    (Diagnostic.sort diagnostics).Pairwise fun first second =>
      first.sortKey ≤ second.sortKey := by
  have sorted := List.pairwise_mergeSort
    (fun first second third left right => by
      have left : first.sortKey ≤ second.sortKey := of_decide_eq_true left
      have right : second.sortKey ≤ third.sortKey := of_decide_eq_true right
      exact decide_eq_true (Nat.le_trans left right))
    (fun first second => by
      simpa using Nat.le_total first.sortKey second.sortKey) diagnostics
  exact sorted.imp of_decide_eq_true

theorem sortKey_of_position (diagnostic : Diagnostic) (place : Position)
    (found : place ∈ diagnostic.position) : diagnostic.sortKey = place.offset := by
  have found : diagnostic.position = some place := found
  simp only [Diagnostic.sortKey, found]

/-- Whatever is wrong with the words of a source makes for a list that can be shown. -/
theorem presentable_lexical (source : String) (diagnostics : List Diagnostic)
    (rejected : lex source = .error diagnostics) : Presentable source diagnostics := by
  obtain ⟨some, rfl⟩ := (lex_error source diagnostics).mp rejected
  have place (run : JunkRun) (member : run ∈ junkRuns source) :
      ((LineIndex.ofSource source).position run.start).offset = run.start :=
    position_offset source run.start (run_start_le source run member)
  constructor
  · simpa using some
  · intro diagnostic member
    obtain ⟨run, _, rfl⟩ := List.mem_map.mp member
    exact ⟨fun _ => ⟨_, rejected⟩, fun _ => rfl⟩
  · intro diagnostic member
    obtain ⟨run, _, rfl⟩ := List.mem_map.mp member
    exact ⟨_, rfl, position_position _ _, position_offset_le source _⟩
  · rw [List.pairwise_map]
    refine (runs_ascending source).imp_of_mem ?_
    rintro first second member later order _ ⟨⟩ _ ⟨⟩
    rw [place first member, place second later]
    exact Nat.le_of_lt order
  · intro diagnostic member
    obtain ⟨run, _, rfl⟩ := List.mem_map.mp member
    intro grammatical
    cases grammatical

/-- Whatever is wrong with the grammar of a source that lexes makes for a list that can
be shown, provided that there is anything. -/
theorem presentable_grammatical (recovery : Recovery) (source : String)
    (lexed : lex source = .ok (tokenizeWithSpans source))
    (some : (parseLexemes recovery (tokenizeWithSpans source) source).diagnostics ≠ []) :
    Presentable source (parseLexemes recovery (tokenizeWithSpans source) source).diagnostics := by
  have each : ∀ diagnostic ∈
      (parseLexemes recovery (tokenizeWithSpans source) source).diagnostics,
      ∃ remark : Remark, diagnostic = remark.toDiagnostic (tokenPlace source) := by
    intro diagnostic member
    obtain ⟨remark, _, rfl⟩ := List.mem_map.mp ((List.mergeSort_perm _ _).mem_iff.mp member)
    exact ⟨remark, rfl⟩
  constructor
  · exact some
  · intro diagnostic member
    obtain ⟨remark, rfl⟩ := each diagnostic member
    simp [Remark.toDiagnostic, lexed]
  · intro diagnostic member
    obtain ⟨remark, rfl⟩ := each diagnostic member
    obtain ⟨offset, place, _⟩ := tokenPlace_cases source remark.start
    refine ⟨tokenPlace source remark.start, rfl, ?_, ?_⟩
    · rw [place]
      exact position_position _ _
    · rw [place]
      exact position_offset_le source offset
  · refine (sort_ordered _).imp ?_
    intro first second order place found later laterFound
    rw [← sortKey_of_position first place found, ← sortKey_of_position second later laterFound]
    exact order
  · intro diagnostic member _ place found
    obtain ⟨remark, rfl⟩ := each diagnostic member
    obtain rfl : tokenPlace source remark.start = place := Option.some.inj found
    obtain ⟨_, _, pointed⟩ := tokenPlace_cases source remark.start
    exact pointed

/-- No token list goes without a tree and without a remark. -/
theorem readTokens_told (recovery : Recovery) (tokens : List Token)
    (failed : (readTokens recovery tokens).file = none) :
    (readTokens recovery tokens).remarks ≠ [] := by
  unfold readTokens at failed ⊢
  split
  · rename_i faults read
    unfold readSteps at read
    dsimp only at read
    split at read
    · cases read
    · cases read
      simp
  · rename_i steps faults read
    rw [read] at failed
    dsimp only at failed ⊢
    split
    · rename_i given
      rw [if_pos given] at failed
      have told : faults ≠ [] := by
        rintro rfl
        simp at given
      simpa using told
    · rename_i kept
      rw [if_neg kept] at failed
      cases failed

/-- Every failure is told.  The diagnostics of a source that is rejected, and those that
stand beside the tree of one that is read with recovery, can be shown to a caller. -/
theorem failures_presentable (source : String) :
    (∀ recovery errors, parseWith recovery source = .error errors → Presentable source errors) ∧
    ((parseRecovering source).diagnostics ≠ [] →
      Presentable source (parseRecovering source).diagnostics) := by
  cases lexed : lex source with
  | error diagnostics =>
    have shown := presentable_lexical source diagnostics lexed
    refine ⟨?_, ?_⟩
    · intro recovery errors failed
      rw [parseWith, lexed] at failed
      cases failed
      exact shown
    · intro _
      rw [parseRecovering, lexed]
      exact shown
  | ok lexemes =>
    obtain ⟨rfl, _⟩ := tokenize_lexed source lexemes lexed
    refine ⟨?_, ?_⟩
    · intro recovery errors failed
      rw [parseWith, lexed] at failed
      have failed : (parseLexemes recovery (tokenizeWithSpans source) source).toExcept =
          .error errors := failed
      have told : (parseLexemes recovery (tokenizeWithSpans source) source).diagnostics ≠ [] ∧
          errors = (parseLexemes recovery (tokenizeWithSpans source) source).diagnostics := by
        unfold Parsed.toExcept at failed
        split at failed
        · cases failed
        · rename_i untold
          cases failed
          refine ⟨?_, rfl⟩
          intro none
          cases read : (parseLexemes recovery (tokenizeWithSpans source) source).file with
          | some file => exact untold file read none
          | none =>
            have noTree := Option.map_eq_none_iff.mp read
            exact diagnostics_ne_nil recovery _ source (readTokens_told recovery _ noTree) none
      rw [told.2]
      exact presentable_grammatical recovery source lexed told.1
    · intro some
      rw [parseRecovering, lexed] at some ⊢
      exact presentable_grammatical .on source lexed some

/-- A comma too many, a parenthesis too many and a list without an end. -/
def hurried : String := "load(\"a\", \"b\",)\n) r("

theorem failures_presentable_hurried :
    (∃ errors, parseWith .off hurried = .error errors ∧ Presentable hurried errors) ∧
      (parseRecovering hurried).diagnostics ≠ [] ∧
      Presentable hurried (parseRecovering hurried).diagnostics := by
  have lexed : lex hurried = .ok (tokenizeWithSpans hurried) :=
    (lex_ok hurried _).mpr ⟨by decide +kernel, rfl⟩
  have remarked : (readTokens .on (tokenize hurried)).remarks.isEmpty = false := by
    decide +kernel
  have noTree : (readTokens .off (tokenize hurried)).file.isNone = true := by decide +kernel
  have told : (parseRecovering hurried).diagnostics ≠ [] := by
    rw [parseRecovering, lexed]
    exact diagnostics_ne_nil .on _ hurried (List.isEmpty_eq_false_iff.mp remarked)
  refine ⟨?_, told, (failures_presentable hurried).2 told⟩
  cases result : parseWith .off hurried with
  | error errors => exact ⟨errors, rfl, (failures_presentable hurried).1 .off errors result⟩
  | ok file =>
    rw [parseWith, lexed] at result
    have result : parseTokens .off (tokenizeWithSpans hurried) hurried = .ok file := result
    obtain ⟨tree, read, _⟩ := (parseTokens_ok .off _ hurried file).mp result
    have read : readTokens .off (tokenize hurried) = ⟨some tree, []⟩ := read
    rw [read] at noTree
    cases noTree

end BuildLang
