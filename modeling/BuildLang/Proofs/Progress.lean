import BuildLang.Proofs.Grammar.Bounds
import BuildLang.Proofs.Grammar.Steps
import BuildLang.Proofs.Tiling

/-!
# Progress of recovery

Reading with recovery gets through every token list.  Each step takes a token at
least and begins where the one before it ended, so that no token is left out and
none belongs to two steps, and no step goes without a fault in which a part of the
input was given up.
-/

set_option autoImplicit false

namespace BuildLang

open BuildLang.Parser

/-- The cursor in front of the token at `index`. -/
def Cursor.ofIndex (tokens : List Token) (index : Nat) : Cursor :=
  ⟨index, tokens.drop index⟩

theorem Spans.ofIndex {tokens taken : List Token} {index : Nat} {next : Cursor}
    (spans : Spans (.ofIndex tokens index) taken next) :
    next = .ofIndex tokens (index + taken.length) := by
  have rest : tokens.drop index = taken ++ next.rest := spans.1
  have behind : tokens.drop (index + taken.length) = next.rest := by
    rw [← List.drop_drop, rest, List.drop_left]
  obtain ⟨stop, left⟩ := next
  obtain rfl : stop = index + taken.length := spans.2
  rw [Cursor.ofIndex, behind]

theorem Spans.place {tokens taken : List Token} {index : Nat} {next : Cursor}
    (spans : Spans (.ofIndex tokens index) taken next) : next = .ofIndex tokens next.index := by
  have behind := spans.ofIndex
  rw [behind]
  rfl

/-- Tokens that are there end within the list. -/
theorem Spans.stop_le {tokens taken : List Token} {index : Nat} {next : Cursor}
    (spans : Spans (.ofIndex tokens index) taken next) (some : 0 < taken.length) :
    index + taken.length ≤ tokens.length := by
  have lengths := congrArg List.length spans.1
  simp only [Cursor.ofIndex, List.length_drop, List.length_append] at lengths
  omega

namespace Step

/-- The tokens that a step takes. -/
def range (step : Step) : Nat × Nat :=
  (step.start, step.stop)

/-- The statement is read there without recovery. -/
def IsRead (tokens : List Token) (step : Step) : Prop :=
  ∃ faults hint, Parser.statement .off (.ofIndex tokens step.start) =
    ⟨faults, .ok ⟨step.statement, hint, .ofIndex tokens step.stop⟩⟩

/-- No statement is read there without recovery; the step is a call that lost its
arguments, up to the parenthesis that closes the list. -/
def IsEmptied (tokens : List Token) (step : Step) : Prop :=
  (∃ fault, (Parser.statement .off (.ofIndex tokens step.start)).outcome = .error fault) ∧
    ∃ name inside, SkipsArguments name ∧
      Spans (.ofIndex tokens step.start)
        (.identifier name :: .leftParen :: (inside ++ [.rightParen]))
        (.ofIndex tokens step.stop) ∧
      ParensBalance inside ∧ step.statement = .emptied name step.start

/-- No statement is read there even with recovery; the step goes up to the next token
that could begin one. -/
def IsSkipped (tokens : List Token) (step : Step) : Prop :=
  (∃ fault, (Parser.statement .on (.ofIndex tokens step.start)).outcome = .error fault) ∧
    step.statement = .skipped ∧
    ∃ lexeme run,
      Spans (.ofIndex tokens step.start) (lexeme :: run) (.ofIndex tokens step.stop) ∧
        SkipsTo (tokens.drop step.stop) run

end Step

/-- A statement that plain reading finds was not given up. -/
theorem Step.IsRead.excludes {tokens : List Token} {step : Step} (read : step.IsRead tokens) :
    ¬ (step.IsEmptied tokens ∨ step.IsSkipped tokens) := by
  obtain ⟨faults, hint, reply⟩ := read
  have ok : (Parser.statement .off (.ofIndex tokens step.start)).outcome =
      .ok ⟨step.statement, hint, .ofIndex tokens step.stop⟩ := by rw [reply]
  rintro (⟨⟨fault, failed⟩, _⟩ | ⟨⟨fault, failed⟩, _⟩)
  · rw [ok] at failed
    cases failed
  · rw [(statement_tolerates _).same _ ok, ok] at failed
    cases failed

/-- Steps that take every token, each in one of three ways. -/
structure Covers (tokens : List Token) (steps : List Step) : Prop where
  tiles : Tiles 0 (steps.map Step.range) tokens.length
  kinds : ∀ step ∈ steps, step.IsRead tokens ∨ step.IsEmptied tokens ∨ step.IsSkipped tokens

/-! ## One step -/

theorem statement_step (tokens : List Token) (index : Nat) (faults : List Fault)
    (node : Statement Nat) (hint : Option Fault) (next : Cursor)
    (read : statement .on (.ofIndex tokens index) = ⟨faults, .ok ⟨node, hint, next⟩⟩) :
    next = .ofIndex tokens next.index ∧
      ((⟨index, next.index, node⟩ : Step).IsRead tokens ∨
        (⟨index, next.index, node⟩ : Step).IsEmptied tokens) := by
  have ok : (statement .on (.ofIndex tokens index)).outcome = .ok ⟨node, hint, next⟩ := by
    rw [read]
  obtain ⟨taken, some, spans⟩ := takes_statement .on _ _ ok
  have place : next = .ofIndex tokens next.index := spans.place
  refine ⟨place, ?_⟩
  cases plain : (statement .off (.ofIndex tokens index)).outcome with
  | ok success =>
    have same := (statement_tolerates (.ofIndex tokens index)).same success plain
    refine .inl ⟨faults, hint, ?_⟩
    rw [← place, ← same, read]
  | error fault =>
    obtain ⟨name, inside, skips, call, balance, value⟩ :=
      statement_emptied _ fault _ plain ok
    refine .inr ⟨⟨fault, plain⟩, name, inside, skips, ?_, balance, value⟩
    rw [← place]
    exact call

/-- A step that is no statement found by plain reading leaves a fault. -/
theorem step_told (tokens : List Token) (index : Nat) (faults : List Fault) (step : Step)
    (hint : Option Fault) (next : Cursor)
    (read : documentStep .on (.ofIndex tokens index) = ⟨faults, .ok ⟨step, hint, next⟩⟩)
    (fault : Fault)
    (failed : (Parser.statement .off (.ofIndex tokens index)).outcome = .error fault) :
    faults ≠ [] := by
  have some : (Cursor.ofIndex tokens index).rest ≠ [] := by
    intro ended
    obtain ⟨last, stopped⟩ := documentStep_end .on _ ended
    rw [read] at stopped
    cases stopped
  have plain : (documentStep .off (.ofIndex tokens index)).outcome = .error fault := by
    simp only [documentStep, Parser.step, mapSpan, failed]
  have told := (documentStep_told _ fault some plain).1
  rw [read] at told
  exact told

theorem documentStep_kinds (tokens : List Token) (index : Nat) (faults : List Fault)
    (step : Step) (hint : Option Fault) (next : Cursor)
    (read : documentStep .on (.ofIndex tokens index) = ⟨faults, .ok ⟨step, hint, next⟩⟩) :
    step.start = index ∧ step.stop = next.index ∧
      (step.IsRead tokens ∨ (step.IsEmptied tokens ∨ step.IsSkipped tokens) ∧ faults ≠ []) := by
  have told := step_told tokens index faults step hint next read
  cases tolerant : Parser.statement .on (.ofIndex tokens index) with
  | mk begun outcome =>
    cases outcome with
    | ok success =>
      obtain ⟨node, found, stop⟩ := success
      have reply : documentStep .on (.ofIndex tokens index) =
          ⟨begun, .ok ⟨⟨index, stop.index, node⟩, found, stop⟩⟩ := by
        simp only [documentStep, recoverWith, Parser.step, mapSpan, tolerant]
        rfl
      rw [reply] at read
      cases read
      obtain ⟨_, kinds⟩ := statement_step tokens index _ node _ _ tolerant
      refine ⟨rfl, rfl, ?_⟩
      rcases kinds with read | emptied
      · exact .inl read
      · obtain ⟨fault, failed⟩ := emptied.1
        exact .inr ⟨.inl emptied, told fault failed⟩
    | error fault =>
      have failed : (Parser.statement .on (.ofIndex tokens index)).outcome = .error fault := by
        rw [tolerant]
      have reply : documentStep .on (.ofIndex tokens index) =
          (skipped (.ofIndex tokens index)).after (begun ++ [fault]) := by
        simp only [documentStep, recoverWith, Parser.step, mapSpan, tolerant]
      cases result : skipped (.ofIndex tokens index) with
      | mk passed outcome =>
        rw [reply, result] at read
        cases read
        obtain ⟨_, rfl, lexeme, run, spans, skips⟩ := (skipped_iff _ _ _ _).mp ⟨_, result⟩
        have place := spans.place
        rw [place] at spans skips
        exact ⟨rfl, rfl, .inr ⟨.inr ⟨⟨fault, failed⟩, rfl, lexeme, run, spans, skips⟩, by simp⟩⟩

/-! ## A run of steps -/

theorem repeats_covers (tokens : List Token) (cursor next : Cursor) (faults : List Fault)
    (steps : List Step) (repeats : Repeats (documentStep .on) cursor faults steps next)
    (place : cursor = .ofIndex tokens cursor.index) (inside : cursor.index ≤ tokens.length) :
    Tiles cursor.index (steps.map Step.range) next.index ∧
      next = .ofIndex tokens next.index ∧ next.index ≤ tokens.length ∧
      ∀ step ∈ steps, step.IsRead tokens ∨
        (step.IsEmptied tokens ∨ step.IsSkipped tokens) ∧ faults ≠ [] := by
  induction repeats with
  | done => exact ⟨.nil, place, inside, by simp⟩
  | @more cursor middle next begun later hint step others first _ ih =>
    rw [place] at first
    have ok : (documentStep .on (.ofIndex tokens cursor.index)).outcome =
        .ok ⟨step, hint, middle⟩ := by rw [first]
    obtain ⟨taken, some, spans⟩ := takes_documentStep .on _ _ ok
    have stopIndex : middle.index = cursor.index + taken.length := spans.2
    have bounded := spans.stop_le some
    obtain ⟨starts, stops, kinds⟩ := documentStep_kinds _ _ _ _ _ _ first
    obtain ⟨tiles, last, ended, rest⟩ := ih spans.place (by omega)
    have range : step.range = (cursor.index, middle.index) := by
      rw [Step.range, starts, stops]
    refine ⟨?_, last, ended, ?_⟩
    · rw [List.map_cons, range]
      exact .cons (by omega) tiles
    · intro other member
      rcases List.mem_cons.mp member with rfl | member
      · rcases kinds with read | ⟨given, told⟩
        · exact .inl read
        · exact .inr ⟨given, by simp [told]⟩
      · rcases rest other member with read | ⟨given, told⟩
        · exact .inl read
        · exact .inr ⟨given, by simp [told]⟩

/-- A step can be taken wherever a token is left. -/
theorem documentStep_stuck (cursor : Cursor) (fault : Fault)
    (failed : (documentStep .on cursor).outcome = .error fault) : cursor.rest = [] := by
  by_contra some
  cases plain : (documentStep .off cursor).outcome with
  | ok success =>
    rw [documentStep_same cursor success plain, plain] at failed
    cases failed
  | error last =>
    obtain ⟨success, read⟩ := (documentStep_told cursor last some plain).2
    rw [read] at failed
    cases failed

/-- With recovery, steps lead from every cursor to the end of input. -/
theorem repeats_total (cursor : Cursor) :
    ∃ faults steps stop, Repeats (documentStep .on) cursor faults steps stop ∧ stop.rest = [] := by
  obtain ⟨⟨steps, hint, stop⟩, read⟩ :=
    manyFrom_ok (documentStep .on) (cursor.rest.length + 1) none cursor
  have all : many (documentStep .on) cursor =
      ⟨(many (documentStep .on) cursor).faults, .ok ⟨steps, hint, stop⟩⟩ :=
    congrArg (Reply.mk _) read
  obtain ⟨repeats, fault, stuck⟩ :=
    (many_iff (takes_documentStep .on) cursor stop _ steps).mp ⟨hint, all⟩
  exact ⟨_, steps, stop, repeats, documentStep_stuck stop fault stuck⟩

theorem readSteps_of_repeats (tokens : List Token) (faults : List Fault) (steps : List Step)
    (stop : Cursor) (repeats : Repeats (documentStep .on) (.start tokens) faults steps stop)
    (ended : stop.rest = []) : readSteps .on tokens = (some steps, faults) := by
  obtain ⟨hint, read⟩ := (many_iff (takes_documentStep .on) _ stop faults steps).mpr
    ⟨repeats, documentStep_end .on stop ended⟩
  exact readSteps_end .on tokens faults steps hint stop read ended

/-! ## Whole documents -/

theorem readSteps_covers (tokens : List Token) :
    ∃ steps faults, readSteps .on tokens = (some steps, faults) ∧ Covers tokens steps ∧
      ((∃ step ∈ steps, step.IsEmptied tokens ∨ step.IsSkipped tokens) → faults ≠ []) := by
  obtain ⟨faults, steps, next, repeats, ended⟩ := repeats_total (.start tokens)
  obtain ⟨tiles, place, inside, kinds⟩ :=
    repeats_covers tokens (.start tokens) next _ steps repeats rfl (Nat.zero_le _)
  have stop : next.index = tokens.length := by
    have left := congrArg Cursor.rest place
    rw [ended] at left
    have behind := List.drop_eq_nil_iff.mp left.symm
    omega
  rw [stop] at tiles
  refine ⟨steps, faults, readSteps_of_repeats tokens faults steps next repeats ended,
    ⟨tiles, ?_⟩, ?_⟩
  · intro step member
    rcases kinds step member with read | ⟨given, _⟩
    · exact .inl read
    · exact .inr given
  · rintro ⟨step, member, given⟩
    rcases kinds step member with read | ⟨_, told⟩
    · exact absurd given read.excludes
    · exact told

theorem parseTokensRecovering_covers (lexemes : List Lexeme) (source : String) :
    ∃ steps faults,
      readSteps .on (lexemes.map Lexeme.token) = (some steps, faults) ∧
      Covers (lexemes.map Lexeme.token) steps ∧
      (parseTokensRecovering lexemes source).file =
        some ((assemble steps).file.mapPosition
          (tokenPosition (.ofSource source) lexemes.toArray)) ∧
      ((∃ step ∈ steps, step.IsEmptied (lexemes.map Lexeme.token) ∨
          step.IsSkipped (lexemes.map Lexeme.token)) →
        (parseTokensRecovering lexemes source).diagnostics ≠ []) := by
  obtain ⟨steps, faults, read, covers, told⟩ := readSteps_covers (lexemes.map Lexeme.token)
  have reading : readTokens .on (lexemes.map Lexeme.token) =
      ⟨some (assemble steps).file, faults.map Fault.toRemark ++ (assemble steps).remarks⟩ := by
    simp [readTokens, read]
  refine ⟨steps, faults, read, covers, ?_, ?_⟩
  · simp [parseTokensRecovering, parseLexemes, reading]
  · intro given
    refine diagnostics_ne_nil .on lexemes source ?_
    simp [reading, told given]

/-- Reading with recovery ends and yields a tree, whatever the tokens and their spans
are.  Its steps take one token or more each and together take them all, in order; a
step that gave a part of the input up makes for a diagnostic; and no bound of the
repetitions is what ends it.  So a source without a tree is one with lexical errors. -/
theorem parseTokensRecovering_progress (lexemes : List Lexeme) (source : String) :
    (∃ steps faults,
      readSteps .on (lexemes.map Lexeme.token) = (some steps, faults) ∧
      Covers (lexemes.map Lexeme.token) steps ∧
      (parseTokensRecovering lexemes source).file =
        some ((assemble steps).file.mapPosition
          (tokenPosition (.ofSource source) lexemes.toArray)) ∧
      ((∃ step ∈ steps, step.IsEmptied (lexemes.map Lexeme.token) ∨
          step.IsSkipped (lexemes.map Lexeme.token)) →
        (parseTokensRecovering lexemes source).diagnostics ≠ [])) ∧
    (∀ cursor fuel, cursor.rest.length < fuel → Unbounded cursor fuel) ∧
    ((parseRecovering source).file = none ↔ ∃ diagnostics, lex source = .error diagnostics) := by
  refine ⟨parseTokensRecovering_covers lexemes source, unbounded, ?_⟩
  cases found : lex source with
  | error diagnostics => simp [parseRecovering, found]
  | ok others =>
    obtain ⟨steps, faults, _, _, file, _⟩ := parseTokensRecovering_covers others source
    simp [parseRecovering, found, file]

end BuildLang
