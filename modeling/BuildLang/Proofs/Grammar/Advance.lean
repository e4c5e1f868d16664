import BuildLang.Grammar.Document
import BuildLang.Proofs.Grammar.Skipping

/-!
# How far parsers get

A parser that yields a value, with or without faults, has taken some tokens, and of
most parsers it is known how many at least.  So no repetition stands still, and the
bounds on repetition and on nesting are never what ends a reading.
-/

set_option autoImplicit false

namespace BuildLang.Parser

variable {α β : Type}

/-- Where the parser yields a value, it has taken `least` tokens or more. -/
def Takes (least : Nat) (parser : Parser α) : Prop :=
  ∀ cursor success, (parser cursor).outcome = .ok success →
    ∃ taken, least ≤ taken.length ∧ Spans cursor taken success.next

section

variable {least more : Nat} {parser : Parser α}

theorem Takes.weaken (takes : Takes more parser) (less : least ≤ more) : Takes least parser := by
  intro cursor success read
  obtain ⟨taken, enough, spans⟩ := takes cursor success read
  exact ⟨taken, Nat.le_trans less enough, spans⟩

theorem Takes.rest_length (takes : Takes least parser) (cursor : Cursor) (success : Success α)
    (read : (parser cursor).outcome = .ok success) :
    success.next.rest.length + least ≤ cursor.rest.length := by
  obtain ⟨taken, enough, spans⟩ := takes cursor success read
  rw [spans.1, List.length_append]
  omega

/-! ## Single tokens -/

theorem accept_ok (expected : List Expected) (read : Token → Option α) (cursor : Cursor)
    (success : Success α) (reply : (accept expected read cursor).outcome = .ok success) :
    ∃ lexeme, Spans cursor [lexeme] success.next ∧ read lexeme = some success.value := by
  cases found : cursor.rest with
  | nil => simp [accept, found, Reply.failure] at reply
  | cons lexeme rest =>
    cases known : read lexeme with
    | none => simp [accept, found, known, Reply.failure] at reply
    | some value =>
      simp only [accept, found, known, Reply.success, Except.ok.injEq] at reply
      rw [← reply]
      exact ⟨lexeme, (spans_singleton _ _ _).mpr ⟨rest, found, rfl⟩, known⟩

theorem exactly_ok (lexeme : Token) (cursor : Cursor) (success : Success Unit)
    (reply : (exactly lexeme cursor).outcome = .ok success) :
    Spans cursor [lexeme] success.next := by
  cases found : cursor.rest with
  | nil => simp [exactly, found, Reply.failure] at reply
  | cons other rest =>
    by_cases same : other = lexeme
    · simp only [exactly, found, if_pos same, Reply.success, Except.ok.injEq] at reply
      rw [← reply, ← same]
      exact (spans_singleton _ _ _).mpr ⟨rest, found, rfl⟩
    · simp [exactly, found, same, Reply.failure] at reply

theorem butNot_ok (unwanted : Parser α) (cursor : Cursor) (success : Success Token)
    (reply : (butNot unwanted cursor).outcome = .ok success) :
    Spans cursor [success.value] success.next ∧
      ∃ fault, (unwanted cursor).outcome = .error fault := by
  unfold butNot at reply
  split at reply
  · rename_i fault lexeme rest failed found
    simp only [Reply.success, Except.ok.injEq] at reply
    rw [← reply]
    exact ⟨(spans_singleton _ _ _).mpr ⟨rest, found, rfl⟩, fault, failed⟩
  · simp [Reply.failure] at reply

theorem takes_accept (expected : List Expected) (read : Token → Option α) :
    Takes 1 (accept expected read) := by
  intro cursor success reply
  obtain ⟨lexeme, spans, _⟩ := accept_ok expected read cursor success reply
  exact ⟨[lexeme], Nat.le_refl 1, spans⟩

theorem takes_exactly (lexeme : Token) : Takes 1 (exactly lexeme) :=
  fun cursor success reply => ⟨[lexeme], Nat.le_refl 1, exactly_ok lexeme cursor success reply⟩

theorem takes_butNot (unwanted : Parser α) : Takes 1 (butNot unwanted) :=
  fun cursor success reply =>
    ⟨[success.value], Nat.le_refl 1, (butNot_ok unwanted cursor success reply).1⟩

/-! ## Values passed on -/

theorem mapSpan_ok (f : Cursor → Cursor → α → β) (cursor : Cursor) (success : Success β)
    (reply : (parser.mapSpan f cursor).outcome = .ok success) :
    ∃ inner, (parser cursor).outcome = .ok inner ∧ inner.next = success.next ∧
      f cursor inner.next inner.value = success.value := by
  cases inner : (parser cursor).outcome with
  | error fault => simp [Parser.mapSpan, inner] at reply
  | ok found =>
    simp only [Parser.mapSpan, inner, Except.ok.injEq] at reply
    exact ⟨found, rfl, by rw [← reply], by rw [← reply]⟩

theorem within_ok (part : Part) (cursor : Cursor) (success : Success α)
    (reply : (parser.within part cursor).outcome = .ok success) :
    ∃ inner, (parser cursor).outcome = .ok inner ∧ inner.next = success.next ∧
      inner.value = success.value := by
  cases inner : (parser cursor).outcome with
  | error fault => simp [Parser.within, inner] at reply
  | ok found =>
    simp only [Parser.within, inner, Except.ok.injEq] at reply
    exact ⟨found, rfl, by rw [← reply], by rw [← reply]⟩

theorem Takes.mapSpan (f : Cursor → Cursor → α → β) (takes : Takes least parser) :
    Takes least (parser.mapSpan f) := by
  intro cursor success reply
  obtain ⟨inner, read, same, _⟩ := mapSpan_ok f cursor success reply
  rw [← same]
  exact takes cursor inner read

theorem Takes.map (f : α → β) (takes : Takes least parser) : Takes least (parser.map f) :=
  takes.mapSpan _

theorem Takes.mapAt (f : Nat → α → β) (takes : Takes least parser) :
    Takes least (parser.mapAt f) :=
  takes.mapSpan _

theorem Takes.within (part : Part) (takes : Takes least parser) :
    Takes least (parser.within part) := by
  intro cursor success reply
  obtain ⟨inner, read, same, _⟩ := within_ok part cursor success reply
  rw [← same]
  exact takes cursor inner read

/-! ## Sequences -/

theorem seq_ok (second : Parser β) (cursor : Cursor) (success : Success (α × β))
    (reply : (parser.seq second cursor).outcome = .ok success) :
    ∃ begun ended, (parser cursor).outcome = .ok begun ∧
      (second begun.next).outcome = .ok ended ∧ ended.next = success.next ∧
      success.value = (begun.value, ended.value) := by
  cases left : (parser cursor).outcome with
  | error fault => simp [Parser.seq, left] at reply
  | ok begun =>
    cases right : (second begun.next).outcome with
    | error fault => simp [Parser.seq, left, right] at reply
    | ok ended =>
      simp only [Parser.seq, left, right, Except.ok.injEq] at reply
      exact ⟨begun, ended, rfl, right, by rw [← reply], by rw [← reply]⟩

theorem Takes.seq {second : Parser β} (takes : Takes least parser) (rest : Takes more second) :
    Takes (least + more) (parser.seq second) := by
  intro cursor success reply
  obtain ⟨begun, ended, left, right, same, _⟩ := seq_ok second cursor success reply
  obtain ⟨front, frontEnough, first⟩ := takes cursor begun left
  obtain ⟨back, backEnough, last⟩ := rest begun.next ended right
  rw [← same]
  refine ⟨front ++ back, ?_, (spans_append _ _ _ _).mpr ⟨begun.next, first, last⟩⟩
  rw [List.length_append]
  omega

theorem Takes.seqRight {second : Parser β} (takes : Takes least parser)
    (rest : Takes more second) : Takes (least + more) (parser.seqRight second) :=
  (takes.seq rest).map _

theorem Takes.seqLeft {second : Parser β} (takes : Takes least parser)
    (rest : Takes more second) : Takes (least + more) (parser.seqLeft second) :=
  (takes.seq rest).map _

theorem Takes.between (opening closing : Token) (takes : Takes least parser) :
    Takes (1 + least + 1) (parser.between opening closing) :=
  ((takes_exactly opening).seqRight takes).seqLeft (takes_exactly closing)

theorem between_ok (opening closing : Token) (cursor : Cursor) (success : Success α)
    (reply : (parser.between opening closing cursor).outcome = .ok success) :
    ∃ start stop, Spans cursor [opening] start ∧ (parser start).outcome = .ok stop ∧
      Spans stop.next [closing] success.next ∧ stop.value = success.value := by
  obtain ⟨outer, reply, outerNext, outerValue⟩ := mapSpan_ok _ cursor success reply
  obtain ⟨front, closed, reply, closes, closedNext, closedValue⟩ := seq_ok _ cursor outer reply
  obtain ⟨pair, reply, frontNext, frontValue⟩ := mapSpan_ok _ cursor front reply
  obtain ⟨opened, inner, opens, read, innerNext, innerValue⟩ := seq_ok _ cursor pair reply
  have closing := exactly_ok closing front.next closed closes
  rw [← frontNext, ← innerNext, closedNext, outerNext] at closing
  refine ⟨opened.next, inner, exactly_ok opening cursor opened opens, read, closing, ?_⟩
  rw [← outerValue, closedValue, ← frontValue, innerValue]

/-! ## Alternatives -/

/-- A choice replies as the alternative it takes. -/
theorem firstOf_ok (alternatives : List (Parser α)) (seen : Option Fault) (cursor : Cursor)
    (success : Success α) (reply : (firstOf seen alternatives cursor).outcome = .ok success) :
    ∃ alternative ∈ alternatives, firstOf seen alternatives cursor = alternative cursor := by
  induction alternatives generalizing seen with
  | nil => simp [firstOf, Reply.failure] at reply
  | cons first others ih =>
    cases plain : (first cursor).outcome with
    | ok found => exact ⟨first, by simp, by simp only [firstOf, plain]⟩
    | error fault =>
      simp only [firstOf, plain] at reply ⊢
      obtain ⟨alternative, member, same⟩ := ih _ reply
      exact ⟨alternative, by simp [member], same⟩

/-- A choice fails only if every alternative does. -/
theorem firstOf_error (alternatives : List (Parser α)) (seen : Option Fault) (cursor : Cursor)
    (fault : Fault) (failed : (firstOf seen alternatives cursor).outcome = .error fault) :
    ∀ alternative ∈ alternatives, ∃ fault, (alternative cursor).outcome = .error fault := by
  induction alternatives generalizing seen with
  | nil => simp
  | cons first others ih =>
    cases plain : (first cursor).outcome with
    | ok found => simp [firstOf, plain] at failed
    | error found =>
      simp only [firstOf, plain] at failed
      intro alternative member
      rcases List.mem_cons.mp member with rfl | later
      · exact ⟨found, plain⟩
      · exact ih _ failed alternative later

theorem takes_firstOf (alternatives : List (Parser α)) (seen : Option Fault)
    (each : ∀ alternative ∈ alternatives, Takes least alternative) :
    Takes least (firstOf seen alternatives) := by
  intro cursor success reply
  obtain ⟨alternative, member, same⟩ := firstOf_ok alternatives seen cursor success reply
  rw [same] at reply
  exact each alternative member cursor success reply

theorem takes_choice (alternatives : List (Parser α))
    (each : ∀ alternative ∈ alternatives, Takes least alternative) :
    Takes least (choice alternatives) :=
  takes_firstOf alternatives none each

theorem withHint_ok (reply : Reply α) (earlier : Option Fault) (success : Success α)
    (read : (reply.withHint earlier).outcome = .ok success) :
    ∃ inner, reply.outcome = .ok inner ∧ inner.next = success.next ∧
      inner.value = success.value := by
  cases plain : reply.outcome with
  | error fault => simp [Reply.withHint, plain] at read
  | ok inner =>
    simp only [Reply.withHint, plain, Except.ok.injEq] at read
    exact ⟨inner, rfl, by rw [← read], by rw [← read]⟩

theorem better_ok (first second : Reply α) (success : Success α)
    (read : (better first second).outcome = .ok success) :
    ∃ inner, (first.outcome = .ok inner ∨ second.outcome = .ok inner) ∧
      inner.next = success.next ∧ inner.value = success.value := by
  have ofFirst (earlier : Option Fault) (read : (first.withHint earlier).outcome = .ok success) :
      ∃ inner, (first.outcome = .ok inner ∨ second.outcome = .ok inner) ∧
        inner.next = success.next ∧ inner.value = success.value := by
    obtain ⟨inner, found, same⟩ := withHint_ok first earlier success read
    exact ⟨inner, .inl found, same⟩
  unfold better at read
  split at read
  · exact ofFirst _ read
  · obtain ⟨inner, found, same⟩ := withHint_ok second _ success read
    exact ⟨inner, .inr found, same⟩
  · unfold balance at read
    split at read
    · cases read
    · exact ofFirst _ read

/-- A value of two alternatives is a value of one of them. -/
theorem orElse_ok (first second : Parser α) (cursor : Cursor) (success : Success α)
    (read : (first.orElse second cursor).outcome = .ok success) :
    ∃ inner, ((first cursor).outcome = .ok inner ∨ (second cursor).outcome = .ok inner) ∧
      inner.next = success.next ∧ inner.value = success.value := by
  unfold orElse at read
  dsimp only at read
  split at read
  · exact ⟨success, .inl read, rfl, rfl⟩
  · split at read
    · obtain ⟨inner, found, same⟩ := withHint_ok _ _ success read
      exact ⟨inner, .inr found, same⟩
    · exact better_ok _ _ success read

theorem Takes.orElse {second : Parser α} (takes : Takes least parser)
    (other : Takes least second) : Takes least (parser.orElse second) := by
  intro cursor success reply
  obtain ⟨inner, read | read, same, _⟩ := orElse_ok _ _ cursor success reply
  · rw [← same]
    exact takes cursor inner read
  · rw [← same]
    exact other cursor inner read

theorem Takes.optional (takes : Takes least parser) : Takes 0 (Parser.optional parser) := by
  intro cursor success reply
  cases inner : (parser cursor).outcome with
  | error fault =>
    simp only [Parser.optional, inner, Except.ok.injEq] at reply
    rw [← reply]
    exact ⟨[], Nat.le_refl 0, (spans_nil _ _).mpr rfl⟩
  | ok found =>
    simp only [Parser.optional, inner, Except.ok.injEq] at reply
    obtain ⟨taken, _, spans⟩ := takes cursor found inner
    rw [← reply]
    exact ⟨taken, Nat.zero_le _, spans⟩

/-! ## Repetitions -/

theorem takes_manyFrom (takes : Takes least parser) (fuel : Nat) (hint : Option Fault) :
    Takes 0 (manyFrom parser fuel hint) := by
  intro cursor success reply
  induction fuel generalizing hint cursor success with
  | zero =>
    simp only [manyFrom, Except.ok.injEq] at reply
    rw [← reply]
    exact ⟨[], Nat.le_refl 0, (spans_nil _ _).mpr rfl⟩
  | succ fuel ih =>
    cases first : (parser cursor).outcome with
    | error fault =>
      simp only [manyFrom, first, Except.ok.injEq] at reply
      rw [← reply]
      exact ⟨[], Nat.le_refl 0, (spans_nil _ _).mpr rfl⟩
    | ok begun =>
      cases later : (manyFrom parser fuel (Fault.latest hint begun.hint) begun.next).outcome with
      | error fault => simp [manyFrom, first, Reply.after, Reply.mapValue, later] at reply
      | ok ended =>
        simp only [manyFrom, first, Reply.after, Reply.mapValue, later, Except.ok.injEq] at reply
        obtain ⟨front, _, left⟩ := takes cursor begun first
        obtain ⟨back, _, right⟩ := ih _ begun.next ended later
        rw [← reply]
        exact ⟨front ++ back, Nat.zero_le _, (spans_append _ _ _ _).mpr ⟨begun.next, left, right⟩⟩

theorem Takes.many (takes : Takes least parser) : Takes 0 (Parser.many parser) :=
  fun cursor => takes_manyFrom takes (cursor.rest.length + 1) none cursor

/-- Items yielded one behind the other, with all their faults. -/
inductive Repeats (item : Parser α) : Cursor → List Fault → List α → Cursor → Prop where
  | done {cursor : Cursor} : Repeats item cursor [] [] cursor
  | more {cursor middle next : Cursor} {faults later : List Fault} {hint : Option Fault}
      {value : α} {others : List α} (first : item cursor = ⟨faults, .ok ⟨value, hint, middle⟩⟩)
      (rest : Repeats item middle later others next) :
      Repeats item cursor (faults ++ later) (value :: others) next

theorem manyFrom_iff (takes : Takes 1 parser) (fuel : Nat) (hint : Option Fault)
    (cursor next : Cursor) (faults : List Fault) (values : List α)
    (enough : cursor.rest.length < fuel) :
    (∃ last, manyFrom parser fuel hint cursor = ⟨faults, .ok ⟨values, last, next⟩⟩) ↔
      Repeats parser cursor faults values next ∧ ∃ fault, (parser next).outcome = .error fault := by
  induction fuel generalizing hint cursor faults values with
  | zero => exact absurd enough (Nat.not_lt_zero _)
  | succ fuel ih =>
    cases first : parser cursor with
    | mk begun outcome =>
      cases outcome with
      | error fault =>
        have failed : (parser cursor).outcome = .error fault := by rw [first]
        simp only [manyFrom, first]
        constructor
        · rintro ⟨last, reply⟩
          cases reply
          exact ⟨.done, fault, failed⟩
        · rintro ⟨repeats, _⟩
          cases repeats with
          | done => exact ⟨_, rfl⟩
          | more other _ =>
            rw [other] at first
            cases first
      | ok success =>
        obtain ⟨value, found, middle⟩ := success
        have read : (parser cursor).outcome = .ok ⟨value, found, middle⟩ := by rw [first]
        have shorter : middle.rest.length + 1 ≤ cursor.rest.length :=
          takes.rest_length cursor _ read
        have rest (later : List Fault) (others : List α) :=
          ih (Fault.latest hint found) middle later others (by omega)
        simp only [manyFrom, first]
        constructor
        · rintro ⟨last, reply⟩
          cases later : manyFrom parser fuel (Fault.latest hint found) middle with
          | mk laterFaults laterOutcome =>
            cases laterOutcome with
            | error fault => simp [later, Reply.after, Reply.mapValue] at reply
            | ok ended =>
              simp only [later, Reply.after, Reply.mapValue] at reply
              cases reply
              obtain ⟨repeats, ends⟩ := (rest _ _).mp ⟨_, later⟩
              exact ⟨.more first repeats, ends⟩
        · rintro ⟨repeats, ends⟩
          cases repeats with
          | done =>
            obtain ⟨fault, failed⟩ := ends
            rw [read] at failed
            cases failed
          | more other repeats =>
            rw [first] at other
            cases other
            obtain ⟨last, later⟩ := (rest _ _).mpr ⟨repeats, ends⟩
            exact ⟨last, by simp only [later, Reply.after, Reply.mapValue]⟩

/-- A repetition yields its items and stops at the first one that fails. -/
theorem many_iff (takes : Takes 1 parser) (cursor next : Cursor) (faults : List Fault)
    (values : List α) :
    (∃ last, many parser cursor = ⟨faults, .ok ⟨values, last, next⟩⟩) ↔
      Repeats parser cursor faults values next ∧ ∃ fault, (parser next).outcome = .error fault :=
  manyFrom_iff takes _ none cursor next faults values (Nat.lt_succ_self _)

theorem takes_commaItems (takes : Takes least parser) (fuel : Nat) (hint : Option Fault) :
    Takes 0 (commaItems parser fuel hint) := by
  intro cursor success reply
  induction fuel generalizing hint cursor success with
  | zero =>
    simp only [commaItems, Except.ok.injEq] at reply
    rw [← reply]
    exact ⟨[], Nat.le_refl 0, (spans_nil _ _).mpr rfl⟩
  | succ fuel ih =>
    unfold commaItems at reply
    split at reply
    · rename_i rest found
      cases first : (parser ⟨cursor.index + 1, rest⟩).outcome with
      | error fault =>
        simp only [first, Except.ok.injEq] at reply
        rw [← reply]
        exact ⟨[], Nat.le_refl 0, (spans_nil _ _).mpr rfl⟩
      | ok begun =>
        cases later : (commaItems parser fuel (Fault.latest hint begun.hint)
            begun.next).outcome with
        | error fault => simp [first, Reply.after, Reply.mapValue, later] at reply
        | ok ended =>
          simp only [first, Reply.after, Reply.mapValue, later, Except.ok.injEq] at reply
          have comma := (spans_singleton cursor ⟨cursor.index + 1, rest⟩ .comma).mpr
            ⟨rest, found, rfl⟩
          obtain ⟨front, _, left⟩ := takes _ begun first
          obtain ⟨back, _, right⟩ := ih _ begun.next ended later
          rw [← reply]
          exact ⟨.comma :: (front ++ back), Nat.zero_le _, (spans_cons _ _ _ _).mpr
            ⟨_, comma, (spans_append _ _ _ _).mpr ⟨begun.next, left, right⟩⟩⟩
    · simp only [Except.ok.injEq] at reply
      rw [← reply]
      exact ⟨[], Nat.le_refl 0, (spans_nil _ _).mpr rfl⟩

theorem takes_separated (takes : Takes least parser) : Takes 0 (separated parser) := by
  intro cursor success reply
  cases first : (parser cursor).outcome with
  | error fault =>
    simp only [separated, first, Except.ok.injEq] at reply
    rw [← reply]
    exact ⟨[], Nat.le_refl 0, (spans_nil _ _).mpr rfl⟩
  | ok begun =>
    cases later : (commaItems parser cursor.rest.length begun.hint begun.next).outcome with
    | error fault => simp [separated, first, Reply.after, Reply.mapValue, later] at reply
    | ok ended =>
      simp only [separated, first, Reply.after, Reply.mapValue, later, Except.ok.injEq] at reply
      obtain ⟨front, _, left⟩ := takes cursor begun first
      obtain ⟨back, _, right⟩ := takes_commaItems takes _ _ begun.next ended later
      rw [← reply]
      exact ⟨front ++ back, Nat.zero_le _, (spans_append _ _ _ _).mpr ⟨begun.next, left, right⟩⟩

theorem takes_commaList (trailing : TrailingComma) (takes : Takes least parser) :
    Takes 0 (commaList trailing parser) := by
  have both : Takes 0 ((separated parser).seq
      (Parser.optional (Parser.mapAt (fun index _ => index) (exactly .comma)))) :=
    (takes_separated takes).seq ((takes_exactly .comma).mapAt _).optional
  intro cursor success reply
  cases inner : ((separated parser).seq
      (Parser.optional (Parser.mapAt (fun index _ => index) (exactly .comma))) cursor).outcome with
  | error fault => simp [commaList, inner] at reply
  | ok found =>
    simp only [commaList, inner, Except.ok.injEq] at reply
    rw [← reply]
    exact both cursor found inner

end

/-! ## Argument lists -/

theorem takes_callArguments {α : Type} {least : Nat} {arguments : Parser α}
    (takes : Takes least arguments) : Takes 1 (callArguments arguments) :=
  (takes.between .leftParen .rightParen).weaken (by omega)

theorem takes_recoverParens {α : Type} {list : Parser (List α)} (takes : Takes 1 list) :
    Takes 1 (recoverParens list) := by
  intro cursor success read
  cases inner : (list cursor).outcome with
  | ok found =>
    rw [recoverParens, inner] at read
    exact takes cursor success read
  | error fault =>
    obtain ⟨_, skipped, _⟩ := recoverParens_some list cursor fault success inner read
    obtain ⟨inside, spans, _⟩ := skipParens_some cursor success.next skipped
    exact ⟨_, by simp, spans⟩

theorem takes_argumentList {α : Type} {least : Nat} (recovery : Recovery)
    (trailing : TrailingComma) {item : Parser α} (takes : Takes least item) :
    Takes 1 (argumentList recovery trailing item) := by
  have list := takes_callArguments (takes_commaList trailing takes)
  cases recovery with
  | on => exact takes_recoverParens list
  | off => exact list

/-! ## Values -/

theorem takes_identifierName : Takes 1 identifierName :=
  (takes_accept _ _).within _

theorem takes_keyword (name : String) : Takes 1 (keyword name) :=
  takes_accept _ _

theorem takes_stringLiteral : Takes 1 stringLiteral :=
  ((takes_accept _ _).mapAt _).within _

theorem takes_numberLiteral : Takes 1 numberLiteral :=
  ((takes_accept _ _).mapAt _).within _

theorem takes_booleanLiteral : Takes 1 booleanLiteral :=
  (takes_accept _ _).mapAt _

theorem takes_identifier : Takes 1 identifier :=
  takes_identifierName.mapAt _

theorem takes_phrase : Takes 1 phrase := by
  refine takes_choice _ ?_
  simp only [List.mem_cons, List.not_mem_nil, or_false, forall_eq_or_imp, forall_eq]
  exact ⟨takes_stringLiteral.map _, takes_identifier.map _⟩

theorem takes_element : Takes 1 element := by
  refine takes_choice _ ?_
  simp only [List.mem_cons, List.not_mem_nil, or_false, forall_eq_or_imp, forall_eq]
  exact ⟨takes_stringLiteral.map _, takes_numberLiteral.map _, takes_booleanLiteral.map _,
    takes_identifier.map _⟩

theorem takes_arrayLiteral : Takes 1 arrayLiteral :=
  ((((takes_commaList _ takes_element).between _ _).mapAt _).within _).weaken (by omega)

theorem takes_arrayOrName : Takes 1 arrayOrName :=
  (takes_arrayLiteral.map _).orElse (takes_identifier.map _)

theorem takes_patterns : Takes 1 patterns :=
  ((takes_commaList _ takes_phrase).between _ _).weaken (by omega)

theorem takes_globArgument : Takes 1 globArgument := by
  have named := (takes_identifierName.seqLeft (takes_exactly .equals)).seq takes_patterns
  exact (takes_patterns.map _).orElse ((named.map _).weaken (by omega))

theorem takes_glob : Takes 1 glob := by
  have call := takes_callArguments (takes_commaList .allowed takes_globArgument)
  exact ((((takes_exactly .glob).seqRight call).mapAt _).within _).weaken (by omega)

section

variable {value : Parser (Value Nat)}

theorem takes_entry (takes : Takes 0 value) : Takes 1 (entry value) := by
  have key := takes_stringLiteral.seqLeft (takes_exactly .colon)
  exact ((key.seq takes).map _).weaken (by omega)

theorem takes_dict (takes : Takes 0 value) : Takes 1 (dict value) :=
  ((((takes_commaList _ (takes_entry takes)).between _ _).mapAt _).within _).weaken (by omega)

theorem takes_constraint (takes : Takes 0 value) : Takes 1 (constraint value) :=
  ((takes_dict takes).map _).orElse (takes_identifier.map _)

theorem takes_noMatchError : Takes 1 noMatchError := by
  have name := ((takes_exactly .comma).seqRight (takes_keyword "no_match_error")).seqRight
    (takes_exactly .equals)
  exact (name.seqRight takes_phrase).weaken (by omega)

theorem takes_select (takes : Takes 0 value) : Takes 1 (select value) := by
  have call := takes_callArguments ((takes_constraint takes).seq takes_noMatchError.optional)
  exact ((((takes_keyword "select").seqRight call).mapAt _).within _).weaken (by omega)

theorem takes_valueOver (takes : Takes 0 value) : Takes 1 (valueOver value) := by
  refine (takes_choice _ ?_).within _
  simp only [List.mem_cons, List.not_mem_nil, or_false, forall_eq_or_imp, forall_eq]
  exact ⟨takes_stringLiteral.map _, takes_numberLiteral.map _, takes_booleanLiteral.map _,
    takes_arrayLiteral.map _, takes_glob.map _, (takes_dict takes).map _,
    (takes_select takes).map _, takes_identifier.map _⟩

end

theorem takes_valueWithin (depth : Nat) : Takes 1 (valueWithin depth) := by
  induction depth with
  | zero =>
    intro cursor success read
    cases read
  | succ depth ih => exact takes_valueOver (ih.weaken (Nat.zero_le 1))

theorem takes_value : Takes 1 value :=
  fun cursor => takes_valueWithin (cursor.rest.length + 1) cursor

/-! ## Statements -/

theorem takes_loadedSymbol : Takes 1 loadedSymbol := by
  have renamed := (takes_identifierName.seqLeft (takes_exactly .equals)).seq takes_stringLiteral
  exact (takes_stringLiteral.map _).orElse ((renamed.mapAt _).weaken (by omega))

theorem takes_load : Takes 1 load := by
  have label := takes_stringLiteral.seqLeft (takes_exactly .comma)
  have call := takes_callArguments
    (label.seq (takes_commaList (.rejected .load) takes_loadedSymbol))
  exact ((((takes_exactly .load).seqRight call).mapAt _).within _).weaken (by omega)

theorem takes_argument : Takes 1 argument := by
  have name := takes_identifierName.seqLeft (takes_exactly .equals)
  exact ((name.seq takes_value).map _).weaken (by omega)

theorem takes_declaration : Takes 1 declaration :=
  takes_argument.mapAt _

theorem takes_ruleName : Takes 1 ruleName :=
  (takes_accept _ _).within _

theorem takes_rule (recovery : Recovery) : Takes 1 (rule recovery) := by
  have attributes := takes_argumentList recovery (.rejected .rule) (takes_argument.mapAt
    fun index argument => Attribute.mk argument.name argument.value (some index))
  exact ((takes_ruleName.seq attributes).mapAt _).weaken (by omega)

theorem takes_package (recovery : Recovery) : Takes 1 (package recovery) := by
  have call := takes_argumentList recovery .allowed takes_argument
  exact (((takes_keyword "package").seqRight call).mapAt _).weaken (by omega)

theorem takes_packageGroup (recovery : Recovery) : Takes 1 (packageGroup recovery) := by
  have call := takes_argumentList recovery .allowed takes_argument
  exact (((takes_keyword "package_group").seqRight call).mapAt _).weaken (by omega)

theorem takes_visibility : Takes 1 visibility := by
  have name := ((takes_exactly .comma).seqRight takes_identifierName).seqLeft
    (takes_exactly .equals)
  exact (name.seqRight takes_arrayOrName).weaken (by omega)

theorem takes_exportsFiles : Takes 1 exportsFiles := by
  have call := takes_callArguments
    ((takes_arrayOrName.seq takes_visibility.optional).seqLeft (takes_exactly .comma).optional)
  exact (((takes_keyword "exports_files").seqRight call).mapAt _).weaken (by omega)

theorem takes_statement (recovery : Recovery) : Takes 1 (statement recovery) := by
  refine takes_choice _ ?_
  simp only [List.mem_cons, List.not_mem_nil, or_false, forall_eq_or_imp, forall_eq]
  exact ⟨takes_load.map _, (takes_package recovery).map _, (takes_packageGroup recovery).map _,
    takes_exportsFiles.map _, (takes_rule recovery).map _, takes_declaration.map _⟩

/-! ## Steps -/

theorem takes_skipped : Takes 1 skipped := by
  have run := (takes_accept [] some).seq (takes_butNot statementStart).many
  exact ((run.map _).mapSpan _).weaken (by omega)

theorem takes_recoverWith {α : Type} {parser fallback : Parser α} (takes : Takes 1 parser)
    (other : Takes 1 fallback) : Takes 1 (recoverWith parser fallback) := by
  intro cursor success read
  cases plain : (parser cursor).outcome with
  | ok found =>
    rw [recoverWith, plain] at read
    exact takes cursor success read
  | error fault =>
    rw [recoverWith, plain] at read
    exact other cursor success read

theorem takes_documentStep (recovery : Recovery) : Takes 1 (documentStep recovery) := by
  have read := (takes_statement recovery).mapSpan
    fun start stop statement => Step.mk start.index stop.index statement
  cases recovery with
  | on => exact takes_recoverWith read takes_skipped
  | off => exact read

end BuildLang.Parser
