import BuildLang.Proofs.Grammar.Shifts
import BuildLang.Proofs.Segments
import BuildLang.Proofs.Spacing

/-!
# What survives an error

Statements in front of the first error are read as if nothing followed.  No look-ahead,
no skipping and no fault further on reaches back to them: the run of steps goes on
behind them, and every fault of a run points behind the place where it began.
-/

set_option autoImplicit false

namespace BuildLang

open BuildLang.Parser

/-! ## Runs of steps -/

theorem Parser.Repeats.append {α : Type} {item : Parser α} {cursor middle next : Cursor}
    {faults later : List Fault} {values others : List α}
    (first : Repeats item cursor faults values middle)
    (second : Repeats item middle later others next) :
    Repeats item cursor (faults ++ later) (values ++ others) next := by
  induction first with
  | done => exact second
  | more read _ ih =>
    rw [List.append_assoc]
    exact .more read (ih second)

theorem parseTokensRecovering_of_repeats (lexemes : List Lexeme) (source : String)
    (faults : List Fault) (steps : List Step) (stop : Cursor)
    (repeats : Repeats (documentStep .on) (.start (lexemes.map Lexeme.token)) faults steps stop)
    (ended : stop.rest = []) :
    parseTokensRecovering lexemes source =
      ⟨some ((BuildFile.ofStatements (steps.map Step.statement)).mapPosition
          (tokenPosition (.ofSource source) lexemes.toArray)),
        Diagnostic.sort ((faults.map Fault.toRemark ++ (assemble steps).remarks).map
          (Remark.toDiagnostic (tokenPosition (.ofSource source) lexemes.toArray)))⟩ := by
  have read := readSteps_of_repeats _ faults steps stop repeats ended
  simp [parseTokensRecovering, parseLexemes, readTokens, read, assemble_file]

/-! ## Statements in front -/

/-- What follows a statement in a row: the next one, which its last token does not take
for its own, or what stands behind the row. -/
theorem admits_in_row (form : StatementForm) (others : List StatementForm) (rest : List Token)
    (admits : ∀ last ∈ (form :: others).getLast?, last.Admits rest.head?) :
    form.Admits
      ((Written.many (others.map StatementForm.step)).tokens ++ rest).head? := by
  cases others with
  | nil => exact admits form rfl
  | cons next more =>
    have begins : (Written.many ((next :: more).map StatementForm.step)).tokens ++ rest =
        next.written.tokens ++
          ((Written.many (more.map StatementForm.step)).tokens ++ rest) :=
      List.append_assoc _ _ _
    rw [begins]
    exact form.admits_of_ne _ (statementStarts_written next _).head_ne.1

/-- Grammatical statements are taken one by one, without a fault, whatever follows. -/
theorem repeats_forms (forms : List StatementForm)
    (grammatical : ∀ form ∈ forms, form.Grammatical) (cursor next : Cursor)
    (spans : Spans cursor (Written.many (forms.map StatementForm.step)).tokens next)
    (admits : ∀ last ∈ forms.getLast?, last.Admits next.rest.head?) :
    Repeats (documentStep .on) cursor []
      ((Written.many (forms.map StatementForm.step)).tree cursor.index) next := by
  induction forms generalizing cursor with
  | nil =>
    obtain rfl := (spans_nil cursor next).mp spans
    exact .done
  | cons form others ih =>
    rw [List.forall_mem_cons] at grammatical
    obtain ⟨clean, grammatical⟩ := grammatical
    obtain ⟨middle, first, later⟩ := (spans_append _ _ _ _).mp spans
    have follows : form.Admits middle.rest.head? := by
      rw [later.1]
      exact admits_in_row form others next.rest admits
    obtain ⟨hint, read⟩ := documentStep_grammatical form clean cursor middle first follows
    have rest := ih grammatical middle later
      fun last member => admits last (List.mem_getLast?_cons member)
    rw [first.2] at rest
    exact .more read rest

/-- The steps of a token list that begins with grammatical statements: theirs, and
others of which none, and no fault, points before the token behind them. -/
theorem repeats_survive (forms : List StatementForm)
    (grammatical : ∀ form ∈ forms, form.Grammatical) (rest : List Token)
    (admits : ∀ last ∈ forms.getLast?, last.Admits rest.head?) (front : List Token)
    (spells : (Written.many (forms.map StatementForm.step)).tokens = front) :
    ∃ faults later stop,
      Repeats (documentStep .on) (.start (front ++ rest)) faults
        ((Written.many (forms.map StatementForm.step)).tree 0 ++ later) stop ∧
      stop.rest = [] ∧ (∀ fault ∈ faults, front.length ≤ fault.start) ∧
      ∀ step ∈ later, front.length ≤ step.start := by
  let next : Cursor := ⟨front.length, rest⟩
  have spans : Spans (.start (front ++ rest)) front next := ⟨rfl, (Nat.zero_add _).symm⟩
  have place : next = .ofIndex (front ++ rest) next.index := spans.place
  have first := repeats_forms forms grammatical _ next (by rw [spells]; exact spans) admits
  obtain ⟨faults, later, stop, second, ended⟩ := repeats_total next
  obtain ⟨tiles, _⟩ := repeats_covers (front ++ rest) next stop faults later second place
    (by simp [next])
  refine ⟨faults, later, stop, first.append second, ended, ?_, ?_⟩
  · exact second.start_le (takes_documentStep .on) (shifts_documentStep .on)
  · intro step member
    exact (tiles.bounds _ (List.mem_map_of_mem member)).1

/-! ## What is remarked behind them -/

/-- Adding steps remarks on those steps only. -/
theorem Assembly.remarks_behind (steps : List Step) (assembly : Assembly) :
    ∀ remark ∈ (steps.foldl Assembly.add assembly).remarks,
      remark ∈ assembly.remarks ∨ ∃ step ∈ steps, remark.start = step.start := by
  induction steps generalizing assembly with
  | nil =>
    intro remark member
    exact .inl member
  | cons step others ih =>
    intro remark member
    rcases ih (assembly.add step) remark member with here | ⟨later, member, start⟩
    · rcases List.mem_append.mp here with before | added
      · exact .inl before
      · obtain ⟨misplacement, _, rfl⟩ := Option.map_eq_some_iff.mp (Option.mem_toList.mp added)
        exact .inr ⟨step, List.mem_cons_self, rfl⟩
    · exact .inr ⟨later, List.mem_cons_of_mem step member, start⟩

theorem remarks_survive (forms : List StatementForm) (later : List Step)
    (inOrder : (forms.map StatementForm.phase).Pairwise Phase.Admits) :
    ∀ remark ∈ (assemble
        ((Written.many (forms.map StatementForm.step)).tree 0 ++ later)).remarks,
      ∃ step ∈ later, remark.start = step.start := by
  intro remark member
  have silent : (assemble ((Written.many (forms.map StatementForm.step)).tree 0)).remarks = [] := by
    rw [assemble_inPlace, many_phases]
    exact inOrder
  rw [assemble, List.foldl_append] at member
  rcases Assembly.remarks_behind later _ remark member with before | behind
  · rw [← assemble, silent] at before
    cases before
  · exact behind

/-! ## Whole token lists -/

/-- The statements of which a tree keeps all are those of another tree, and more. -/
structure BuildFile.Begins {π : Type} (kept file : BuildFile π) : Prop where
  loads : kept.loads <+: file.loads
  rules : kept.rules <+: file.rules
  declarations : kept.declarations <+: file.declarations

/-- What is well formed before the first error survives.  Whatever stands behind some
grammatical statements, the loads, rules and declarations of the recovered tree begin
with theirs, each at its place; and if they are in order among themselves, no diagnostic
points before the first token behind them. -/
theorem parseTokensRecovering_survives (forms : List StatementForm)
    (grammatical : ∀ form ∈ forms, form.Grammatical) (front rest : List Lexeme)
    (spells : front.map Lexeme.token = (Written.many (forms.map StatementForm.written)).tokens)
    (admits : ∀ last ∈ forms.getLast?, last.Admits (rest.map Lexeme.token).head?)
    (source : String) :
    (∃ file, (parseTokensRecovering (front ++ rest) source).file = some file ∧
      ((BuildFile.ofStatements
        ((Written.many (forms.map StatementForm.written)).tree 0)).mapPosition
          (tokenPosition (.ofSource source) (front ++ rest).toArray)).Begins file) ∧
    (lex source = .ok (front ++ rest) →
      (forms.map StatementForm.phase).Pairwise Phase.Admits →
      ∀ diagnostic ∈ (parseTokensRecovering (front ++ rest) source).diagnostics,
        ∃ place, diagnostic.position = some place ∧
          ∀ first ∈ rest.head?, first.start ≤ place.offset) := by
  obtain ⟨faults, later, stop, repeats, ended, faultsBehind, laterBehind⟩ :=
    repeats_survive forms grammatical (rest.map Lexeme.token) admits (front.map Lexeme.token)
      ((many_tokens forms).trans spells.symm)
  rw [← List.map_append] at repeats
  rw [List.length_map] at faultsBehind laterBehind
  have parsed := parseTokensRecovering_of_repeats _ source faults _ stop repeats ended
  refine ⟨⟨_, congrArg Parsed.file parsed, ?_⟩, ?_⟩
  · rw [List.map_append, many_statements]
    constructor <;> simp [BuildFile.ofStatements, BuildFile.mapPosition]
  · intro lexed inOrder diagnostic member
    obtain ⟨tokens, _⟩ := tokenize_lexed source _ lexed
    rw [parsed, tokens] at member
    obtain ⟨remark, told, rfl⟩ := List.mem_map.mp ((List.mergeSort_perm _ _).mem_iff.mp member)
    refine ⟨tokenPlace source remark.start, rfl, ?_⟩
    intro first found
    have behind : front.length ≤ remark.start := by
      rcases List.mem_append.mp told with fault | misplaced
      · obtain ⟨origin, given, rfl⟩ := List.mem_map.mp fault
        exact faultsBehind origin given
      · obtain ⟨step, member, start⟩ := remarks_survive forms later inOrder remark misplaced
        rw [start]
        exact laterBehind step member
    have place : (tokenizeWithSpans source)[front.length]? = some first := by
      rw [← tokens, List.getElem?_append_right (Nat.le_refl _), Nat.sub_self,
        ← List.head?_eq_getElem?]
      exact found
    rw [← tokenPlace_inside source front.length first place, tokenPlace_le_iff]
    omega

/-- `load("a", "b")` -/
def earlyLoad : StatementForm :=
  .load ⟨"\"a\"", ⟨[.plain "\"b\""], false⟩⟩

def earlyLexemes : List Lexeme :=
  [⟨.load, 0, 4⟩, ⟨.leftParen, 4, 5⟩, ⟨.string "\"a\"", 5, 8⟩, ⟨.comma, 8, 9⟩,
    ⟨.string "\"b\"", 10, 13⟩, ⟨.rightParen, 13, 14⟩]

/-- A parenthesis too many leaves the load before it alone. -/
theorem parseTokensRecovering_survives_load :
    (∃ file, (parseTokensRecovering (earlyLexemes ++ [⟨.rightParen, 15, 16⟩])
        "load(\"a\", \"b\") )").file = some file ∧
        ∃ load others, file.loads = load :: others ∧ load.source = "a") ∧
      ∀ diagnostic ∈ (parseTokensRecovering (earlyLexemes ++ [⟨.rightParen, 15, 16⟩])
        "load(\"a\", \"b\") )").diagnostics,
        ∃ place, diagnostic.position = some place ∧ 15 ≤ place.offset := by
  have lexed : lex "load(\"a\", \"b\") )" = .ok (earlyLexemes ++ [⟨.rightParen, 15, 16⟩]) :=
    (lex_ok _ _).mpr ⟨by decide +kernel, by decide +kernel⟩
  obtain ⟨⟨file, read, begins⟩, behind⟩ := parseTokensRecovering_survives [earlyLoad]
    (List.forall_mem_singleton.mpr fun _ => rfl) earlyLexemes [⟨.rightParen, 15, 16⟩] rfl
    (by simp [earlyLoad, StatementForm.Admits]) "load(\"a\", \"b\") )"
  refine ⟨⟨file, read, ?_⟩, ?_⟩
  · obtain ⟨others, loads⟩ := begins.loads
    exact ⟨_, others, loads.symm, by decide +kernel⟩
  · intro diagnostic member
    obtain ⟨place, found, after⟩ := behind lexed (by decide) diagnostic member
    exact ⟨place, found, after _ rfl⟩

end BuildLang
