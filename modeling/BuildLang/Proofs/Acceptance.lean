import BuildLang.Parse
import BuildLang.Proofs.Grammar.Documents
import BuildLang.Proofs.Placement

/-!
# Accepted token lists

A token list is accepted exactly if it is written out by some derivation of a
file in which no comma stands where none may, and the tree is the one that the
derivation stands for.
-/

set_option autoImplicit false

namespace BuildLang

open BuildLang.Parser

theorem many_tokens (forms : List StatementForm) :
    (Written.many (forms.map StatementForm.step)).tokens =
      (Written.many (forms.map StatementForm.written)).tokens := by
  induction forms with
  | nil => rfl
  | cons form others ih => exact congrArg (form.written.tokens ++ ·) ih

theorem many_statements (forms : List StatementForm) (start : Nat) :
    ((Written.many (forms.map StatementForm.step)).tree start).map Step.statement =
      (Written.many (forms.map StatementForm.written)).tree start := by
  induction forms generalizing start with
  | nil => rfl
  | cons form others ih =>
    exact congrArg (form.written.tree start :: ·) (ih (start + form.written.tokens.length))

theorem many_surplus (forms : List StatementForm) (start : Nat) :
    (Written.many (forms.map StatementForm.step)).surplus start =
      (Written.many (forms.map StatementForm.written)).surplus start := by
  induction forms generalizing start with
  | nil => rfl
  | cons form others ih =>
    exact congrArg (form.written.surplus start ++ ·) (ih (start + form.written.tokens.length))

theorem many_phases (forms : List StatementForm) (start : Nat) :
    ((Written.many (forms.map StatementForm.step)).tree start).filterMap
      (fun step => step.statement.phase?) = forms.map StatementForm.phase := by
  induction forms generalizing start with
  | nil => rfl
  | cons form others ih =>
    have tree : (Written.many ((form :: others).map StatementForm.step)).tree start =
        form.step.tree start :: (Written.many (others.map StatementForm.step)).tree
          (start + form.step.tokens.length) := rfl
    have known : (form.step.tree start).statement.phase? = some form.phase :=
      form.phase_tree start
    rw [tree, List.filterMap_cons, known, List.map_cons, ih]

/-- Reading without any remark comes down to reading steps without a fault and
finding them all in place. -/
theorem readTokens_clean (recovery : Recovery) (tokens : List Token) (file : BuildFile Nat) :
    readTokens recovery tokens = ⟨some file, []⟩ ↔
      ∃ steps, readSteps recovery tokens = (some steps, []) ∧
        (assemble steps).remarks = [] ∧ (assemble steps).file = file := by
  unfold readTokens
  obtain ⟨read, faults⟩ := readSteps recovery tokens
  cases read with
  | none => simp
  | some steps =>
    cases faults with
    | nil => simp [and_comm]
    | cons fault others =>
      dsimp only
      split
      · simp
      · simp

theorem readTokens_forms (recovery : Recovery) (tokens : List Token) (file : BuildFile Nat) :
    readTokens recovery tokens = ⟨some file, []⟩ ↔
      ∃ form : FileForm, form.written.tokens = tokens ∧ form.written.surplus 0 = [] ∧
        form.written.tree 0 = file := by
  rw [readTokens_clean]
  constructor
  · rintro ⟨steps, read, inPlace, rfl⟩
    obtain ⟨forms, rfl, rfl, clean⟩ := (readSteps_forms recovery tokens steps).mp read
    rw [assemble_inPlace, many_phases] at inPlace
    obtain ⟨form, rfl⟩ := FileForm.of_inOrder forms inPlace
    refine ⟨form, (many_tokens _).symm, (many_surplus _ _).symm.trans clean, ?_⟩
    rw [assemble_file, many_statements]
    rfl
  · rintro ⟨form, rfl, clean, rfl⟩
    refine ⟨(Written.many (form.statements.map StatementForm.step)).tree 0, ?_, ?_, ?_⟩
    · exact (readSteps_forms recovery _ _).mpr
        ⟨form.statements, many_tokens _, rfl, (many_surplus _ _).trans clean⟩
    · rw [assemble_inPlace, many_phases]
      exact form.inOrder
    · rw [assemble_file, many_statements]
      rfl

theorem sort_eq_nil (diagnostics : List Diagnostic) :
    Diagnostic.sort diagnostics = [] ↔ diagnostics = [] := by
  rw [Diagnostic.sort, ← List.length_eq_zero_iff, List.length_mergeSort, List.length_eq_zero_iff]

/-- A token list is accepted if reading it leaves nothing to remark. -/
theorem parseTokens_ok (recovery : Recovery) (lexemes : List Lexeme) (source : String)
    (file : BuildFile Position) :
    parseTokens recovery lexemes source = .ok file ↔
      ∃ tree, readTokens recovery (lexemes.map Lexeme.token) = ⟨some tree, []⟩ ∧
        file = tree.mapPosition (tokenPosition (.ofSource source) lexemes.toArray) := by
  unfold parseTokens parseLexemes Parsed.toExcept
  obtain ⟨read, remarks⟩ := readTokens recovery (lexemes.map Lexeme.token)
  dsimp only
  cases read with
  | none => simp
  | some tree =>
    cases remarks with
    | nil => simp [Diagnostic.sort, eq_comm]
    | cons remark others =>
      have some : Diagnostic.sort ((remark :: others).map (Remark.toDiagnostic
          (tokenPosition (.ofSource source) lexemes.toArray))) ≠ [] := by
        rw [Ne, sort_eq_nil]
        simp
      split
      · rename_i none
        exact absurd none some
      · simp

/-- With recovery and without, a token list is accepted exactly if it has a
derivation with no comma too many, and the tree is that of the derivation. -/
theorem parseTokens_iff_derivable (recovery : Recovery) (lexemes : List Lexeme)
    (source : String) (file : BuildFile Position) :
    parseTokens recovery lexemes source = .ok file ↔
      ∃ form : FileForm, form.written.tokens = lexemes.map Lexeme.token ∧
        form.written.surplus 0 = [] ∧
        file = (form.written.tree 0).mapPosition
          (tokenPosition (.ofSource source) lexemes.toArray) := by
  rw [parseTokens_ok]
  constructor
  · rintro ⟨tree, read, rfl⟩
    obtain ⟨form, tokens, clean, rfl⟩ := (readTokens_forms recovery _ tree).mp read
    exact ⟨form, tokens, clean, rfl⟩
  · rintro ⟨form, tokens, clean, rfl⟩
    exact ⟨_, (readTokens_forms recovery _ _).mpr ⟨form, tokens, clean, rfl⟩, rfl⟩

end BuildLang
