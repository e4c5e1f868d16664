import BuildLang.Grammar.Document
import BuildLang.Proofs.Grammar.Statements

/-!
# Reading documents

A document is read to its end without a fault exactly if it is a row of written
statements, and then step by step as those.
-/

set_option autoImplicit false

namespace BuildLang

/-- A statement together with the tokens it takes. -/
def StatementForm.step (form : StatementForm) : Written Step :=
  form.written.mapAt fun start statement =>
    ⟨start, start + form.written.tokens.length, statement⟩

namespace Parser

section

variable {α : Type}

/-! ## Repetition -/

/-- Items read one behind the other. -/
inductive ReadsMany (item : Parser α) :
    Cursor → List SurplusComma → List α → Cursor → Prop where
  | done {cursor : Cursor} : ReadsMany item cursor [] [] cursor
  | more {cursor middle next : Cursor} {front back : List SurplusComma} {value : α}
      {others : List α} (first : Reads item cursor front value middle)
      (rest : ReadsMany item middle back others next) :
      ReadsMany item cursor (front ++ back) (value :: others) next

theorem manyFrom_complete (item : Parser α) (fuel : Nat) (hint : Option Fault)
    (cursor next : Cursor) (commas : List SurplusComma) (values : List α)
    (rest : ReadsMany item cursor commas values next)
    (ends : ∃ fault, (item next).outcome = .error fault) (enough : values.length ≤ fuel) :
    Reads (manyFrom item fuel hint) cursor commas values next := by
  induction rest generalizing fuel hint with
  | @done cursor =>
    cases fuel with
    | zero => exact ⟨[], hint, rfl, rfl⟩
    | succ fuel =>
      obtain ⟨fault, failed⟩ := ends
      exact ⟨[], _, by simp only [manyFrom, failed]; rfl, rfl⟩
  | @more cursor middle next front back value others first _ ih =>
    cases fuel with
    | zero => simp at enough
    | succ fuel =>
      have smaller : others.length ≤ fuel := by simpa using enough
      obtain ⟨frontFaults, frontHint, frontReply, frontMarks⟩ := first
      obtain ⟨backFaults, backHint, backReply, backMarks⟩ :=
        ih fuel (Fault.latest hint frontHint) ends smaller
      refine ⟨frontFaults ++ backFaults, backHint, ?_, ?_⟩
      · simp only [manyFrom, frontReply, backReply, Reply.after, Reply.mapValue]
      · rw [List.map_append, List.map_append, frontMarks, backMarks]

theorem manyFrom_sound (item : Parser α) (fuel : Nat) (hint : Option Fault)
    (cursor next : Cursor) (values : List α)
    (reads : Reads (manyFrom item fuel hint) cursor [] values next) :
    ReadsMany item cursor [] values next := by
  induction fuel generalizing hint cursor values with
  | zero =>
    obtain ⟨last, reply⟩ := (reads_clean _ _ _ _).mp reads
    cases reply
    exact .done
  | succ fuel ih =>
    obtain ⟨last, reply⟩ := (reads_clean _ _ _ _).mp reads
    cases first : item cursor with
    | mk faults outcome =>
      cases outcome with
      | error fault =>
        simp only [manyFrom, first] at reply
        cases reply
        exact .done
      | ok success =>
        cases later : manyFrom item fuel (Fault.latest hint success.hint) success.next with
        | mk laterFaults laterOutcome =>
          cases laterOutcome with
          | error fault => simp [manyFrom, first, later, Reply.after, Reply.mapValue] at reply
          | ok ended =>
            simp only [manyFrom, first, later, Reply.after, Reply.mapValue, Reply.mk.injEq,
              List.append_eq_nil_iff] at reply
            obtain ⟨⟨rfl, rfl⟩, same⟩ := reply
            cases same
            have value := (reads_clean _ _ _ _).mpr ⟨_, first⟩
            have rest := ih _ _ _ ((reads_clean _ _ _ _).mpr ⟨_, later⟩)
            exact .more value rest

theorem reads_finish (cursor next : Cursor) (commas : List SurplusComma) (value : Unit) :
    Reads finish cursor commas value next ↔ commas = [] ∧ next = cursor ∧ cursor.rest = [] := by
  constructor
  · rintro ⟨faults, hint, reply, marks⟩
    unfold finish at reply
    split at reply
    · rename_i ended
      cases reply
      exact ⟨by simpa using marks.symm, rfl, ended⟩
    · cases reply
  · rintro ⟨rfl, rfl, ended⟩
    exact ⟨[], none, by simp [finish, ended, Reply.success], rfl⟩

end

/-! ## Steps -/

theorem reads_step (recovery : Recovery) (cursor next : Cursor) (commas : List SurplusComma)
    (form : StatementForm) (spans : Spans cursor form.step.tokens next)
    (reads : Reads (statement recovery) cursor commas (form.written.tree cursor.index) next) :
    Reads (step (statement recovery)) cursor commas (form.step.tree cursor.index) next := by
  refine (reads_mapSpan _ _ _ _ _ _).mpr ⟨_, reads, ?_⟩
  rw [spans.2]
  rfl

theorem readsWritten_documentStep (recovery : Recovery) (form : StatementForm) :
    ReadsWritten (documentStep recovery) form.step form.Admits := by
  intro cursor next spans after
  have reads := reads_step recovery cursor next _ form spans
    (readsWritten_statement recovery form cursor next spans after)
  cases recovery with
  | off => exact reads
  | on =>
    obtain ⟨faults, hint, reply, marks⟩ := reads
    exact ⟨faults, hint, by simp [documentStep, recoverWith, reply], marks⟩

theorem recoverWith_clean {α : Type} (parser fallback : Parser α) (cursor next : Cursor)
    (value : α) (reads : Reads (recoverWith parser fallback) cursor [] value next) :
    Reads parser cursor [] value next := by
  obtain ⟨hint, reply⟩ := (reads_clean _ _ _ _).mp reads
  cases result : parser cursor with
  | mk faults outcome =>
    cases outcome with
    | ok success =>
      simp only [recoverWith, result] at reply
      exact (reads_clean _ _ _ _).mpr ⟨hint, result.trans reply⟩
    | error fault => simp [recoverWith, result, Reply.after] at reply

theorem readsOnly_documentStep (recovery : Recovery) :
    ReadsOnly (documentStep recovery) StatementForm.step := by
  intro cursor value next reads
  have plain : Reads (step (statement recovery)) cursor [] value next := by
    cases recovery with
    | off => exact reads
    | on => exact recoverWith_clean _ _ cursor next value reads
  obtain ⟨inner, chosen, rfl⟩ := (reads_mapSpan _ _ _ _ _ _).mp plain
  obtain ⟨form, spans, rfl, surplus⟩ := readsOnly_statement recovery cursor inner next chosen
  refine ⟨form, spans, ?_, surplus⟩
  rw [spans.2]
  rfl

/-- Nothing is read where nothing is left, not even by skipping. -/
theorem documentStep_end (recovery : Recovery) (cursor : Cursor) (ended : cursor.rest = []) :
    ∃ fault, (documentStep recovery cursor).outcome = .error fault := by
  obtain ⟨index, rest⟩ := cursor
  obtain rfl : rest = [] := ended
  cases recovery with
  | off => exact ⟨_, rfl⟩
  | on => exact ⟨_, rfl⟩

/-! ## Whole documents -/

theorem statement_begins (form : StatementForm) :
    ∃ lexeme others, form.step.tokens = lexeme :: others ∧ lexeme ≠ .leftParen := by
  match form with
  | .load form => exact ⟨.load, _, rfl, by simp⟩
  | .package form => exact ⟨.identifier "package", _, rfl, by simp⟩
  | .packageGroup form => exact ⟨.identifier "package_group", _, rfl, by simp⟩
  | .body (.exportsFiles form) => exact ⟨.identifier "exports_files", _, rfl, by simp⟩
  | .body (.rule form) => exact ⟨.identifier form.kind, _, rfl, by simp⟩
  | .body (.declaration form) => exact ⟨.identifier form.name, _, rfl, by simp⟩

theorem head_many (forms : List StatementForm) (cursor next : Cursor)
    (spans : Spans cursor (Written.many (forms.map StatementForm.step)).tokens next)
    (ended : next.rest = []) : cursor.rest.head? ≠ some .leftParen := by
  cases forms with
  | nil =>
    obtain rfl := (spans_nil cursor next).mp spans
    simp [ended]
  | cons form others =>
    obtain ⟨middle, first, _⟩ := (spans_append _ _ _ _).mp spans
    obtain ⟨lexeme, later, begins, noParen⟩ := statement_begins form
    rw [first.1, begins]
    simpa using noParen

theorem readsMany_written (recovery : Recovery) (forms : List StatementForm)
    (cursor next : Cursor)
    (spans : Spans cursor (Written.many (forms.map StatementForm.step)).tokens next)
    (ended : next.rest = []) :
    ReadsMany (documentStep recovery) cursor
      ((Written.many (forms.map StatementForm.step)).surplus cursor.index)
      ((Written.many (forms.map StatementForm.step)).tree cursor.index) next := by
  induction forms generalizing cursor with
  | nil =>
    obtain rfl := (spans_nil cursor next).mp spans
    exact .done
  | cons form others ih =>
    obtain ⟨middle, first, later⟩ := (spans_append _ _ _ _).mp spans
    have read := readsWritten_documentStep recovery form cursor middle first
      (form.admits_of_ne _ (head_many others middle next later ended))
    have rest := ih middle later
    rw [first.2] at rest
    exact .more read rest

theorem length_le_many (forms : List StatementForm) (start : Nat) :
    ((Written.many (forms.map StatementForm.step)).tree start).length ≤
      (Written.many (forms.map StatementForm.step)).tokens.length := by
  induction forms generalizing start with
  | nil => exact Nat.le_refl 0
  | cons form others ih =>
    obtain ⟨lexeme, later, begins, _⟩ := statement_begins form
    have counted := ih (start + form.step.tokens.length)
    have tokens : (Written.many ((form :: others).map StatementForm.step)).tokens =
        form.step.tokens ++ (Written.many (others.map StatementForm.step)).tokens := rfl
    have tree : (Written.many ((form :: others).map StatementForm.step)).tree start =
        form.step.tree start :: (Written.many (others.map StatementForm.step)).tree
          (start + form.step.tokens.length) := rfl
    rw [tokens, tree, List.length_append, List.length_cons]
    rw [begins, List.length_cons] at counted ⊢
    omega

/-- A row of written statements is read as what it is, with every comma that it has
too many. -/
theorem reads_document (recovery : Recovery) (forms : List StatementForm) :
    Reads (document recovery)
      (.start (Written.many (forms.map StatementForm.step)).tokens)
      ((Written.many (forms.map StatementForm.step)).surplus 0)
      ((Written.many (forms.map StatementForm.step)).tree 0)
      ⟨(Written.many (forms.map StatementForm.step)).tokens.length, []⟩ := by
  let tokens := (Written.many (forms.map StatementForm.step)).tokens
  have spans : Spans (.start tokens) tokens ⟨tokens.length, []⟩ :=
    ⟨(List.append_nil _).symm, (Nat.zero_add _).symm⟩
  have steps := readsMany_written recovery forms (.start tokens) _ spans rfl
  have ends := documentStep_end recovery ⟨tokens.length, []⟩ rfl
  have all := manyFrom_complete (documentStep recovery) (tokens.length + 1) none _ _ _ _ steps
    ends (Nat.le_succ_of_le (length_le_many forms 0))
  exact (reads_seqLeft _ _ _ _ _ _).mpr ⟨_, _, [], (), all,
    (reads_finish _ _ _ _).mpr ⟨rfl, rfl, rfl⟩, (List.append_nil _).symm⟩

theorem readsMany_only (recovery : Recovery) (cursor next : Cursor) (values : List Step)
    (reads : ReadsMany (documentStep recovery) cursor [] values next) :
    ∃ forms : List StatementForm,
      Spans cursor (Written.many (forms.map StatementForm.step)).tokens next ∧
      (Written.many (forms.map StatementForm.step)).tree cursor.index = values ∧
      (Written.many (forms.map StatementForm.step)).surplus cursor.index = [] := by
  generalize clean : ([] : List SurplusComma) = commas at reads
  induction reads with
  | @done cursor => exact ⟨[], (spans_nil _ _).mpr rfl, rfl, rfl⟩
  | @more cursor middle next front back value others first _ ih =>
    obtain ⟨rfl, rfl⟩ := List.append_eq_nil_iff.mp clean.symm
    obtain ⟨form, spans, tree, surplus⟩ :=
      readsOnly_documentStep recovery cursor value middle first
    obtain ⟨later, laterSpans, laterTree, laterSurplus⟩ := ih rfl
    rw [spans.2] at laterTree laterSurplus
    refine ⟨form :: later, (spans_append _ _ _ _).mpr ⟨middle, spans, laterSpans⟩, ?_, ?_⟩
    · rw [← tree, ← laterTree]
      rfl
    · exact List.append_eq_nil_iff.mpr ⟨surplus, laterSurplus⟩

end Parser

open BuildLang.Parser

theorem readSteps_clean (recovery : Recovery) (tokens : List Token) (steps : List Step) :
    readSteps recovery tokens = (some steps, []) ↔
      ∃ next, Reads (document recovery) (.start tokens) [] steps next := by
  cases result : document recovery (.start tokens) with
  | mk faults outcome =>
    cases outcome with
    | error fault => simp [readSteps, reads_clean, result]
    | ok success =>
      obtain ⟨value, hint, next⟩ := success
      simp [readSteps, reads_clean, result, and_comm]

/-- A token list is read without a fault exactly if it is a row of written statements
with no comma too many. -/
theorem readSteps_forms (recovery : Recovery) (tokens : List Token) (steps : List Step) :
    readSteps recovery tokens = (some steps, []) ↔
      ∃ forms : List StatementForm,
        (Written.many (forms.map StatementForm.step)).tokens = tokens ∧
        (Written.many (forms.map StatementForm.step)).tree 0 = steps ∧
        (Written.many (forms.map StatementForm.step)).surplus 0 = [] := by
  rw [readSteps_clean]
  constructor
  · rintro ⟨next, reads⟩
    obtain ⟨stop, front, back, _, all, finished, none⟩ := (reads_seqLeft _ _ _ _ _ _).mp reads
    obtain ⟨rfl, rfl⟩ := List.append_eq_nil_iff.mp none.symm
    obtain ⟨_, _, ended⟩ := (reads_finish _ _ _ _).mp finished
    obtain ⟨forms, spans, tree, surplus⟩ := readsMany_only recovery _ stop steps
      (manyFrom_sound _ _ _ _ _ _ all)
    refine ⟨forms, ?_, tree, surplus⟩
    have same : tokens = _ ++ stop.rest := spans.1
    rw [same, ended, List.append_nil]
  · rintro ⟨forms, rfl, rfl, clean⟩
    have reads := reads_document recovery forms
    rw [clean] at reads
    exact ⟨_, reads⟩

end BuildLang
