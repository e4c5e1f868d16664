import BuildLang.Grammar.Statement

/-!
# What parsers read

A parser reads a value from one cursor to another if it yields the value there
and complains about nothing but commas that some list does not admit; it refuses
a cursor if it fails there and has got past nothing.  Each combinator says what
it reads and refuses in terms of its parts, so that no later proof looks at a
reply.
-/

set_option autoImplicit false

namespace BuildLang

/-- The tokens that lie between two cursors. -/
def Spans (cursor : Cursor) (tokens : List Token) (next : Cursor) : Prop :=
  cursor.rest = tokens ++ next.rest ∧ next.index = cursor.index + tokens.length

theorem spans_nil (cursor next : Cursor) : Spans cursor [] next ↔ next = cursor := by
  constructor
  · rintro ⟨same, index⟩
    cases cursor
    cases next
    simp_all
  · rintro rfl
    exact ⟨rfl, rfl⟩

theorem spans_append (cursor next : Cursor) (front back : List Token) :
    Spans cursor (front ++ back) next ↔
      ∃ middle, Spans cursor front middle ∧ Spans middle back next := by
  constructor
  · rintro ⟨same, index⟩
    refine ⟨⟨cursor.index + front.length, back ++ next.rest⟩, ⟨?_, rfl⟩, ⟨rfl, ?_⟩⟩
    · rw [same, List.append_assoc]
    · rw [index, List.length_append, Nat.add_assoc]
  · rintro ⟨middle, ⟨first, firstIndex⟩, ⟨second, secondIndex⟩⟩
    refine ⟨?_, ?_⟩
    · rw [first, second, List.append_assoc]
    · rw [secondIndex, firstIndex, List.length_append, Nat.add_assoc]

theorem spans_cons (cursor next : Cursor) (lexeme : Token) (others : List Token) :
    Spans cursor (lexeme :: others) next ↔
      ∃ middle, Spans cursor [lexeme] middle ∧ Spans middle others next := by
  rw [← List.singleton_append, spans_append]

theorem spans_singleton (cursor next : Cursor) (lexeme : Token) :
    Spans cursor [lexeme] next ↔
      ∃ rest, cursor.rest = lexeme :: rest ∧ next = ⟨cursor.index + 1, rest⟩ := by
  constructor
  · rintro ⟨same, index⟩
    refine ⟨next.rest, same, ?_⟩
    cases next
    simp_all
  · rintro ⟨rest, same, rfl⟩
    exact ⟨same, rfl⟩

theorem Spans.unique {cursor next other : Cursor} {tokens : List Token}
    (spans : Spans cursor tokens next) (also : Spans cursor tokens other) : next = other := by
  have rest : next.rest = other.rest := List.append_cancel_left (spans.1.symm.trans also.1)
  have index : next.index = other.index := spans.2.trans also.2.symm
  cases next
  cases other
  rw [Cursor.mk.injEq]
  exact ⟨index, rest⟩

/-- A comma behind the last item of a list that admits none. -/
structure SurplusComma where
  index : Nat
  list : StrictList
  deriving DecidableEq, Repr

/-- What of a fault does not depend on where in the grammar it is told. -/
def Fault.mark (fault : Fault) : Nat × Reason :=
  (fault.start, fault.reason)

def SurplusComma.mark (comma : SurplusComma) : Nat × Reason :=
  (comma.index, .trailingComma comma.list)

theorem marks_enter (part : Part) (faults : List Fault) :
    (faults.map (Fault.enter part)).map Fault.mark = faults.map Fault.mark := by
  rw [List.map_map]
  rfl

namespace Parser

variable {α β : Type}

/-- The parser yields the value, and its faults are the given surplus commas. -/
def Reads (parser : Parser α) (cursor : Cursor) (commas : List SurplusComma) (value : α)
    (next : Cursor) : Prop :=
  ∃ faults hint, parser cursor = ⟨faults, .ok ⟨value, hint, next⟩⟩ ∧
    faults.map Fault.mark = commas.map SurplusComma.mark

/-- The parser fails on its own account, without a fault that it got past. -/
def Refuses (parser : Parser α) (cursor : Cursor) : Prop :=
  ∃ fault, parser cursor = ⟨[], .error fault⟩

/-- Reading without a fault. -/
theorem reads_clean (parser : Parser α) (cursor next : Cursor) (value : α) :
    Reads parser cursor [] value next ↔
      ∃ hint, parser cursor = ⟨[], .ok ⟨value, hint, next⟩⟩ := by
  constructor
  · rintro ⟨faults, hint, reply, marks⟩
    obtain rfl : faults = [] := by simpa using marks
    exact ⟨hint, reply⟩
  · rintro ⟨hint, reply⟩
    exact ⟨[], hint, reply, rfl⟩

/-! ## Single tokens -/

theorem reads_accept (expected : List Expected) (read : Token → Option α) (cursor next : Cursor)
    (commas : List SurplusComma) (value : α) :
    Reads (accept expected read) cursor commas value next ↔
      commas = [] ∧ ∃ lexeme, Spans cursor [lexeme] next ∧ read lexeme = some value := by
  constructor
  · rintro ⟨faults, hint, reply, marks⟩
    unfold accept at reply
    split at reply
    · cases reply
    · rename_i lexeme rest found
      split at reply
      · rename_i result known
        cases reply
        exact ⟨by simpa using marks.symm, lexeme,
          (spans_singleton _ _ _).mpr ⟨rest, found, rfl⟩, known⟩
      · cases reply
  · rintro ⟨rfl, lexeme, spans, known⟩
    obtain ⟨rest, found, rfl⟩ := (spans_singleton _ _ _).mp spans
    exact ⟨[], none, by simp [accept, found, known, Reply.success], rfl⟩

theorem refuses_accept (expected : List Expected) (read : Token → Option α) (cursor : Cursor)
    (unknown : ∀ lexeme ∈ cursor.rest.head?, read lexeme = none) :
    Refuses (accept expected read) cursor := by
  unfold Refuses accept
  cases found : cursor.rest with
  | nil => exact ⟨_, rfl⟩
  | cons lexeme rest =>
    have none := unknown lexeme (by simp [found])
    simp only [none]
    exact ⟨_, rfl⟩

theorem reads_exactly (lexeme : Token) (cursor next : Cursor) (commas : List SurplusComma)
    (value : Unit) :
    Reads (exactly lexeme) cursor commas value next ↔
      commas = [] ∧ Spans cursor [lexeme] next := by
  constructor
  · rintro ⟨faults, hint, reply, marks⟩
    unfold exactly at reply
    split at reply
    · cases reply
    · rename_i found rest same
      split at reply
      · rename_i equal
        subst equal
        cases reply
        exact ⟨by simpa using marks.symm, (spans_singleton _ _ _).mpr ⟨rest, same, rfl⟩⟩
      · cases reply
  · rintro ⟨rfl, spans⟩
    obtain ⟨rest, found, rfl⟩ := (spans_singleton _ _ _).mp spans
    exact ⟨[], none, by simp [exactly, found, Reply.success], rfl⟩

theorem refuses_exactly (lexeme : Token) (cursor : Cursor)
    (different : cursor.rest.head? ≠ some lexeme) : Refuses (exactly lexeme) cursor := by
  unfold Refuses exactly
  cases found : cursor.rest with
  | nil => exact ⟨_, rfl⟩
  | cons other rest =>
    have unequal : other ≠ lexeme := by simpa [found] using different
    simp only [if_neg unequal]
    exact ⟨_, rfl⟩

/-! ## Values passed on -/

theorem reads_mapSpan (f : Cursor → Cursor → α → β) (parser : Parser α) (cursor next : Cursor)
    (commas : List SurplusComma) (value : β) :
    Reads (mapSpan f parser) cursor commas value next ↔
      ∃ inner, Reads parser cursor commas inner next ∧ f cursor next inner = value := by
  constructor
  · rintro ⟨faults, hint, reply, marks⟩
    unfold mapSpan at reply
    cases result : parser cursor with
    | mk innerFaults outcome =>
      cases outcome with
      | error fault => simp [result] at reply
      | ok success =>
        simp only [result] at reply
        cases reply
        exact ⟨success.value, ⟨faults, success.hint, result, marks⟩, rfl⟩
  · rintro ⟨inner, ⟨faults, hint, reply, marks⟩, rfl⟩
    exact ⟨faults, hint, by simp [mapSpan, reply], marks⟩

theorem refuses_mapSpan (f : Cursor → Cursor → α → β) (parser : Parser α) (cursor : Cursor)
    (refuses : Refuses parser cursor) : Refuses (mapSpan f parser) cursor := by
  obtain ⟨fault, reply⟩ := refuses
  exact ⟨fault, by simp [mapSpan, reply]⟩

theorem reads_map (f : α → β) (parser : Parser α) (cursor next : Cursor)
    (commas : List SurplusComma) (value : β) :
    Reads (parser.map f) cursor commas value next ↔
      ∃ inner, Reads parser cursor commas inner next ∧ f inner = value :=
  reads_mapSpan _ parser cursor next commas value

theorem refuses_map (f : α → β) (parser : Parser α) (cursor : Cursor)
    (refuses : Refuses parser cursor) : Refuses (parser.map f) cursor :=
  refuses_mapSpan _ parser cursor refuses

theorem reads_mapAt (f : Nat → α → β) (parser : Parser α) (cursor next : Cursor)
    (commas : List SurplusComma) (value : β) :
    Reads (mapAt f parser) cursor commas value next ↔
      ∃ inner, Reads parser cursor commas inner next ∧ f cursor.index inner = value :=
  reads_mapSpan _ parser cursor next commas value

theorem refuses_mapAt (f : Nat → α → β) (parser : Parser α) (cursor : Cursor)
    (refuses : Refuses parser cursor) : Refuses (mapAt f parser) cursor :=
  refuses_mapSpan _ parser cursor refuses

theorem reads_within (part : Part) (parser : Parser α) (cursor next : Cursor)
    (commas : List SurplusComma) (value : α) :
    Reads (within part parser) cursor commas value next ↔
      Reads parser cursor commas value next := by
  constructor
  · rintro ⟨faults, hint, reply, marks⟩
    unfold within at reply
    cases result : parser cursor with
    | mk innerFaults outcome =>
      cases outcome with
      | error fault => simp [result] at reply
      | ok success =>
        simp only [result] at reply
        cases reply
        rw [marks_enter] at marks
        exact ⟨innerFaults, success.hint, result, marks⟩
  · rintro ⟨faults, hint, reply, marks⟩
    refine ⟨faults.map (Fault.enter part), hint.map (Fault.enter part), ?_, ?_⟩
    · simp [within, reply]
    · rw [marks_enter, marks]

theorem refuses_within (part : Part) (parser : Parser α) (cursor : Cursor)
    (refuses : Refuses parser cursor) : Refuses (within part parser) cursor := by
  obtain ⟨fault, reply⟩ := refuses
  exact ⟨fault.enter part, by simp [within, reply]⟩

/-! ## Sequences -/

theorem reads_seq (first : Parser α) (second : Parser β) (cursor next : Cursor)
    (commas : List SurplusComma) (value : α × β) :
    Reads (first.seq second) cursor commas value next ↔
      ∃ middle front back, Reads first cursor front value.1 middle ∧
        Reads second middle back value.2 next ∧ commas = front ++ back := by
  constructor
  · rintro ⟨faults, hint, reply, marks⟩
    unfold seq at reply
    cases left : first cursor with
    | mk leftFaults leftOutcome =>
      cases leftOutcome with
      | error fault => simp [left] at reply
      | ok begun =>
        cases right : second begun.next with
        | mk rightFaults rightOutcome =>
          cases rightOutcome with
          | error fault => simp [left, right] at reply
          | ok ended =>
            simp only [left, right] at reply
            cases reply
            rw [List.map_append] at marks
            obtain ⟨front, back, rfl, frontMarks, backMarks⟩ :=
              List.map_eq_append_iff.mp marks.symm
            exact ⟨begun.next, front, back, ⟨_, _, left, frontMarks.symm⟩,
              ⟨_, _, right, backMarks.symm⟩, rfl⟩
  · rintro ⟨middle, front, back, ⟨leftFaults, leftHint, left, leftMarks⟩,
      ⟨rightFaults, rightHint, right, rightMarks⟩, rfl⟩
    refine ⟨leftFaults ++ rightFaults, Fault.latest leftHint rightHint, ?_, ?_⟩
    · simp only [seq, left, right]
    · rw [List.map_append, List.map_append, leftMarks, rightMarks]

theorem refuses_seq_first (first : Parser α) (second : Parser β) (cursor : Cursor)
    (refuses : Refuses first cursor) : Refuses (first.seq second) cursor := by
  obtain ⟨fault, reply⟩ := refuses
  exact ⟨fault, by simp [seq, reply]⟩

theorem refuses_seq_second (first : Parser α) (second : Parser β) (cursor middle : Cursor)
    (value : α) (reads : Reads first cursor [] value middle) (refuses : Refuses second middle) :
    Refuses (first.seq second) cursor := by
  obtain ⟨hint, left⟩ := (reads_clean _ _ _ _).mp reads
  obtain ⟨fault, right⟩ := refuses
  exact ⟨_, by simp only [seq, left, right, List.nil_append]; rfl⟩

theorem reads_seqRight (first : Parser α) (second : Parser β) (cursor next : Cursor)
    (commas : List SurplusComma) (value : β) :
    Reads (first.seqRight second) cursor commas value next ↔
      ∃ middle front back ignored, Reads first cursor front ignored middle ∧
        Reads second middle back value next ∧ commas = front ++ back := by
  rw [seqRight, reads_map]
  constructor
  · rintro ⟨pair, reads, rfl⟩
    obtain ⟨middle, front, back, left, right, split⟩ := (reads_seq _ _ _ _ _ _).mp reads
    exact ⟨middle, front, back, pair.1, left, right, split⟩
  · rintro ⟨middle, front, back, ignored, left, right, split⟩
    exact ⟨(ignored, value), (reads_seq _ _ _ _ _ _).mpr
      ⟨middle, front, back, left, right, split⟩, rfl⟩

theorem reads_seqLeft (first : Parser α) (second : Parser β) (cursor next : Cursor)
    (commas : List SurplusComma) (value : α) :
    Reads (first.seqLeft second) cursor commas value next ↔
      ∃ middle front back ignored, Reads first cursor front value middle ∧
        Reads second middle back ignored next ∧ commas = front ++ back := by
  rw [seqLeft, reads_map]
  constructor
  · rintro ⟨pair, reads, rfl⟩
    obtain ⟨middle, front, back, left, right, split⟩ := (reads_seq _ _ _ _ _ _).mp reads
    exact ⟨middle, front, back, pair.2, left, right, split⟩
  · rintro ⟨middle, front, back, ignored, left, right, split⟩
    exact ⟨(value, ignored), (reads_seq _ _ _ _ _ _).mpr
      ⟨middle, front, back, left, right, split⟩, rfl⟩

/-- A fixed token in front. -/
theorem reads_behind (lexeme : Token) (parser : Parser α) (cursor next : Cursor)
    (commas : List SurplusComma) (value : α) :
    Reads ((exactly lexeme).seqRight parser) cursor commas value next ↔
      ∃ middle, Spans cursor [lexeme] middle ∧ Reads parser middle commas value next := by
  rw [reads_seqRight]
  constructor
  · rintro ⟨middle, front, back, ignored, token, reads, rfl⟩
    obtain ⟨rfl, spans⟩ := (reads_exactly _ _ _ _ _).mp token
    exact ⟨middle, spans, reads⟩
  · rintro ⟨middle, spans, reads⟩
    exact ⟨middle, [], commas, (), (reads_exactly _ _ _ _ _).mpr ⟨rfl, spans⟩, reads, rfl⟩

/-- A fixed token behind. -/
theorem reads_before (lexeme : Token) (parser : Parser α) (cursor next : Cursor)
    (commas : List SurplusComma) (value : α) :
    Reads (parser.seqLeft (exactly lexeme)) cursor commas value next ↔
      ∃ middle, Reads parser cursor commas value middle ∧ Spans middle [lexeme] next := by
  rw [reads_seqLeft]
  constructor
  · rintro ⟨middle, front, back, ignored, reads, token, rfl⟩
    obtain ⟨rfl, spans⟩ := (reads_exactly _ _ _ _ _).mp token
    exact ⟨middle, by simpa using reads, spans⟩
  · rintro ⟨middle, reads, spans⟩
    exact ⟨middle, commas, [], (), reads, (reads_exactly _ _ _ _ _).mpr ⟨rfl, spans⟩, by simp⟩

theorem reads_between (opening closing : Token) (parser : Parser α) (cursor next : Cursor)
    (commas : List SurplusComma) (value : α) :
    Reads (parser.between opening closing) cursor commas value next ↔
      ∃ start stop, Spans cursor [opening] start ∧ Reads parser start commas value stop ∧
        Spans stop [closing] next := by
  rw [between, reads_before]
  constructor
  · rintro ⟨stop, reads, closed⟩
    obtain ⟨start, opened, inner⟩ := (reads_behind _ _ _ _ _ _).mp reads
    exact ⟨start, stop, opened, inner, closed⟩
  · rintro ⟨start, stop, opened, inner, closed⟩
    exact ⟨stop, (reads_behind _ _ _ _ _ _).mpr ⟨start, opened, inner⟩, closed⟩

theorem refuses_seqRight (first : Parser α) (second : Parser β) (cursor : Cursor)
    (refuses : Refuses first cursor) : Refuses (first.seqRight second) cursor :=
  refuses_map _ _ cursor (refuses_seq_first first second cursor refuses)

theorem refuses_seqLeft (first : Parser α) (second : Parser β) (cursor : Cursor)
    (refuses : Refuses first cursor) : Refuses (first.seqLeft second) cursor :=
  refuses_map _ _ cursor (refuses_seq_first first second cursor refuses)

theorem refuses_between (opening closing : Token) (parser : Parser α) (cursor : Cursor)
    (different : cursor.rest.head? ≠ some opening) :
    Refuses (parser.between opening closing) cursor :=
  refuses_seqLeft _ _ cursor
    (refuses_seqRight _ _ cursor (refuses_exactly opening cursor different))

/-! ## Alternatives -/

theorem reads_firstOf (front : List (Parser α)) (parser : Parser α) (back : List (Parser α))
    (seen : Option Fault) (cursor next : Cursor) (commas : List SurplusComma) (value : α)
    (refuse : ∀ other ∈ front, Refuses other cursor)
    (reads : Reads parser cursor commas value next) :
    Reads (firstOf seen (front ++ parser :: back)) cursor commas value next := by
  induction front generalizing seen with
  | nil =>
    obtain ⟨faults, hint, reply, marks⟩ := reads
    exact ⟨faults, hint, by simp [firstOf, reply], marks⟩
  | cons other front ih =>
    obtain ⟨fault, failed⟩ := refuse other (by simp)
    obtain ⟨faults, hint, reply, marks⟩ :=
      ih (Fault.latest seen (some fault)) (fun later member => refuse later (by simp [member]))
    exact ⟨faults, hint, by simp [firstOf, failed, reply], marks⟩

/-- A choice reads what an alternative reads, provided that those before refuse. -/
theorem reads_choice (front : List (Parser α)) (parser : Parser α) (back : List (Parser α))
    (cursor next : Cursor) (commas : List SurplusComma) (value : α)
    (refuse : ∀ other ∈ front, Refuses other cursor)
    (reads : Reads parser cursor commas value next) :
    Reads (choice (front ++ parser :: back)) cursor commas value next :=
  reads_firstOf front parser back none cursor next commas value refuse reads

theorem firstOf_reads (alternatives : List (Parser α)) (seen : Option Fault)
    (cursor next : Cursor) (commas : List SurplusComma) (value : α)
    (reads : Reads (firstOf seen alternatives) cursor commas value next) :
    ∃ parser ∈ alternatives, Reads parser cursor commas value next := by
  induction alternatives generalizing seen with
  | nil =>
    obtain ⟨faults, hint, reply, _⟩ := reads
    cases reply
  | cons parser others ih =>
    cases result : parser cursor with
    | mk faults outcome =>
      cases outcome with
      | error fault =>
        have later : Reads (firstOf (Fault.latest seen (some fault)) others) cursor commas value
            next := by
          obtain ⟨laterFaults, hint, reply, marks⟩ := reads
          exact ⟨laterFaults, hint, by simpa [firstOf, result] using reply, marks⟩
        obtain ⟨chosen, member, chosenReads⟩ := ih _ later
        exact ⟨chosen, by simp [member], chosenReads⟩
      | ok success =>
        obtain ⟨laterFaults, hint, reply, marks⟩ := reads
        exact ⟨parser, by simp, laterFaults, hint, by simpa [firstOf, result] using reply, marks⟩

/-- What a choice reads, one of its alternatives reads. -/
theorem choice_reads (alternatives : List (Parser α)) (cursor next : Cursor)
    (commas : List SurplusComma) (value : α)
    (reads : Reads (choice alternatives) cursor commas value next) :
    ∃ parser ∈ alternatives, Reads parser cursor commas value next :=
  firstOf_reads alternatives none cursor next commas value reads

theorem refuses_firstOf (alternatives : List (Parser α)) (seen : Option Fault) (cursor : Cursor)
    (refuse : ∀ parser ∈ alternatives, Refuses parser cursor) :
    Refuses (firstOf seen alternatives) cursor := by
  induction alternatives generalizing seen with
  | nil => exact ⟨_, rfl⟩
  | cons parser others ih =>
    obtain ⟨fault, failed⟩ := refuse parser (by simp)
    obtain ⟨last, reply⟩ := ih (Fault.latest seen (some fault))
      (fun later member => refuse later (by simp [member]))
    exact ⟨last, by simp [firstOf, failed, reply]⟩

theorem refuses_choice (alternatives : List (Parser α)) (cursor : Cursor)
    (refuse : ∀ parser ∈ alternatives, Refuses parser cursor) :
    Refuses (choice alternatives) cursor :=
  refuses_firstOf alternatives none cursor refuse

theorem reads_orElse_first (first second : Parser α) (cursor next : Cursor)
    (commas : List SurplusComma) (value : α) (refuses : Refuses second cursor)
    (reads : Reads first cursor commas value next) :
    Reads (first.orElse second) cursor commas value next := by
  obtain ⟨faults, hint, left, marks⟩ := reads
  obtain ⟨fault, right⟩ := refuses
  cases faults with
  | nil => exact ⟨[], hint, by simp [orElse, left, isClean], marks⟩
  | cons head faults =>
    refine ⟨head :: faults, Fault.latest hint (some fault), ?_, marks⟩
    simp only [orElse, left, right, isClean, better, preference, List.isEmpty_cons,
      Bool.false_eq_true, if_false]
    rfl

theorem reads_orElse_second (first second : Parser α) (cursor next : Cursor)
    (commas : List SurplusComma) (value : α) (refuses : Refuses first cursor)
    (reads : Reads second cursor commas value next) :
    Reads (first.orElse second) cursor commas value next := by
  obtain ⟨faults, hint, right, marks⟩ := reads
  obtain ⟨fault, left⟩ := refuses
  cases faults with
  | nil =>
    refine ⟨[], Fault.latest hint (some fault), ?_, marks⟩
    simp only [orElse, left, right, isClean, List.isEmpty_nil, Bool.false_eq_true, if_false,
      if_true]
    rfl
  | cons head faults =>
    refine ⟨head :: faults, Fault.latest hint (some fault), ?_, marks⟩
    simp only [orElse, left, right, isClean, better, preference, List.isEmpty_cons,
      Bool.false_eq_true, if_false]
    rfl

theorem refuses_orElse (first second : Parser α) (cursor : Cursor)
    (firstRefuses : Refuses first cursor) (secondRefuses : Refuses second cursor) :
    Refuses (first.orElse second) cursor := by
  obtain ⟨firstFault, left⟩ := firstRefuses
  obtain ⟨secondFault, right⟩ := secondRefuses
  unfold Refuses orElse
  simp only [left, right, isClean, Bool.false_eq_true, if_false, better]
  split
  · exact ⟨_, rfl⟩
  · exact ⟨_, rfl⟩
  · exact ⟨_, rfl⟩

theorem withHint_clean (reply : Reply α) (earlier : Option Fault) (success : Success α)
    (clean : reply.withHint earlier = ⟨[], .ok success⟩) : isClean reply = true := by
  rcases reply with ⟨faults, outcome⟩
  cases outcome with
  | error fault => simp [Reply.withHint] at clean
  | ok inner =>
    simp only [Reply.withHint, Reply.mk.injEq] at clean
    simp [isClean, clean.1]

/-- The better of two replies holds no clean value unless one of them does. -/
theorem better_clean (first second : Reply α) (success : Success α)
    (clean : better first second = ⟨[], .ok success⟩) :
    isClean first = true ∨ isClean second = true := by
  unfold better at clean
  split at clean
  · exact .inl (withHint_clean first second.hint success clean)
  · exact .inr (withHint_clean second first.hint success clean)
  · unfold balance at clean
    split at clean
    · simp at clean
    · exact .inl (withHint_clean first second.hint success clean)

theorem isClean_reads (parser : Parser α) (cursor : Cursor)
    (clean : isClean (parser cursor) = true) :
    ∃ success, parser cursor = ⟨[], .ok success⟩ := by
  cases result : parser cursor with
  | mk faults outcome =>
    cases outcome with
    | error fault => simp [isClean, result] at clean
    | ok success =>
      have none : faults = [] := by simpa [isClean, result] using clean
      exact ⟨success, by rw [none]⟩

theorem orElse_reads (first second : Parser α) (cursor next : Cursor) (value : α)
    (reads : Reads (first.orElse second) cursor [] value next) :
    Reads first cursor [] value next ∨ Reads second cursor [] value next := by
  obtain ⟨hint, reply⟩ := (reads_clean _ _ _ _).mp reads
  unfold orElse at reply
  by_cases left : isClean (first cursor) = true
  · rw [if_pos left] at reply
    exact .inl ((reads_clean _ _ _ _).mpr ⟨hint, reply⟩)
  · rw [if_neg left] at reply
    by_cases right : isClean (second cursor) = true
    · rw [if_pos right] at reply
      obtain ⟨success, same⟩ := isClean_reads second cursor right
      rw [same] at reply
      cases reply
      exact .inr ((reads_clean _ _ _ _).mpr ⟨success.hint, same⟩)
    · rw [if_neg right] at reply
      rcases better_clean _ _ _ reply with clean | clean
      · exact absurd clean left
      · exact absurd clean right

/-! ## Optional parts -/

theorem reads_optional_some (parser : Parser α) (cursor next : Cursor)
    (commas : List SurplusComma) (value : α) (reads : Reads parser cursor commas value next) :
    Reads (Parser.optional parser) cursor commas (some value) next := by
  obtain ⟨faults, hint, reply, marks⟩ := reads
  exact ⟨faults, hint, by simp [Parser.optional, reply], marks⟩

theorem reads_optional_none (parser : Parser α) (cursor : Cursor)
    (refuses : Refuses parser cursor) :
    Reads (Parser.optional parser) cursor [] none cursor := by
  obtain ⟨fault, reply⟩ := refuses
  exact ⟨[], some fault, by simp [Parser.optional, reply], rfl⟩

theorem optional_reads (parser : Parser α) (cursor next : Cursor) (commas : List SurplusComma)
    (value : Option α) (reads : Reads (Parser.optional parser) cursor commas value next) :
    (∃ inner, value = some inner ∧ Reads parser cursor commas inner next) ∨
      value = none ∧ commas = [] ∧ next = cursor := by
  obtain ⟨faults, hint, reply, marks⟩ := reads
  unfold Parser.optional at reply
  cases result : parser cursor with
  | mk innerFaults outcome =>
    simp only [result] at reply
    cases outcome with
    | error fault =>
      cases reply
      exact .inr ⟨rfl, by simpa using marks.symm, rfl⟩
    | ok success =>
      cases reply
      exact .inl ⟨success.value, rfl, faults, success.hint, result, marks⟩

/-! ## Refused tokens -/

/-- The parser refuses to start with the token. -/
def RefusesToken (parser : Parser α) (lexeme : Token) : Prop :=
  ∀ cursor : Cursor, cursor.rest.head? = some lexeme → Refuses parser cursor

section

variable {parser : Parser α} {lexeme : Token}

theorem refusesToken_accept (expected : List Expected) (read : Token → Option α)
    (unknown : read lexeme = none) : RefusesToken (accept expected read) lexeme := by
  intro cursor found
  apply refuses_accept
  intro other member
  rw [found] at member
  cases member
  exact unknown

@[simp]
theorem refusesToken_exactly (other : Token) (different : lexeme ≠ other) :
    RefusesToken (exactly other) lexeme := by
  intro cursor found
  apply refuses_exactly
  rw [found]
  exact fun same => different (Option.some.inj same)

@[simp]
theorem RefusesToken.map (f : α → β) (refuses : RefusesToken parser lexeme) :
    RefusesToken (parser.map f) lexeme :=
  fun cursor found => refuses_map f parser cursor (refuses cursor found)

@[simp]
theorem RefusesToken.mapAt (f : Nat → α → β) (refuses : RefusesToken parser lexeme) :
    RefusesToken (parser.mapAt f) lexeme :=
  fun cursor found => refuses_mapAt f parser cursor (refuses cursor found)

@[simp]
theorem RefusesToken.within (part : Part) (refuses : RefusesToken parser lexeme) :
    RefusesToken (parser.within part) lexeme :=
  fun cursor found => refuses_within part parser cursor (refuses cursor found)

@[simp]
theorem RefusesToken.seq (second : Parser β) (refuses : RefusesToken parser lexeme) :
    RefusesToken (parser.seq second) lexeme :=
  fun cursor found => refuses_seq_first parser second cursor (refuses cursor found)

@[simp]
theorem RefusesToken.seqRight (second : Parser β) (refuses : RefusesToken parser lexeme) :
    RefusesToken (parser.seqRight second) lexeme :=
  fun cursor found => refuses_seqRight parser second cursor (refuses cursor found)

@[simp]
theorem RefusesToken.seqLeft (second : Parser β) (refuses : RefusesToken parser lexeme) :
    RefusesToken (parser.seqLeft second) lexeme :=
  fun cursor found => refuses_seqLeft parser second cursor (refuses cursor found)

@[simp]
theorem refusesToken_between (opening closing : Token) (different : lexeme ≠ opening) :
    RefusesToken (parser.between opening closing) lexeme :=
  .seqLeft _ (.seqRight _ (refusesToken_exactly opening different))

@[simp]
theorem refusesToken_choice (alternatives : List (Parser α))
    (refuse : ∀ alternative ∈ alternatives, RefusesToken alternative lexeme) :
    RefusesToken (choice alternatives) lexeme :=
  fun cursor found => refuses_choice alternatives cursor
    (fun alternative member => refuse alternative member cursor found)

@[simp]
theorem RefusesToken.orElse {second : Parser α} (refuses : RefusesToken parser lexeme)
    (other : RefusesToken second lexeme) : RefusesToken (parser.orElse second) lexeme :=
  fun cursor found => refuses_orElse parser second cursor (refuses cursor found)
    (other cursor found)

end

end Parser

end BuildLang
