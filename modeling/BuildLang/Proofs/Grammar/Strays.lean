import BuildLang.Proofs.Grammar.HonestGrammar

/-!
# Stray commas

Where nothing is skipped, reading gets past one kind of fault only: a comma that no item
follows, right in front of the token that closes its list.  A parser is orderly if, whenever
it yields a value, its faults are such commas among the tokens it took, each told once and
in order.
-/

set_option autoImplicit false

namespace BuildLang

/-- The tokens that can end a list. -/
def Token.isClosing : Token → Bool
  | .rightBracket | .rightParen | .rightBrace => true
  | _ => false

/-- The faults point at commas between the cursors, in order, and what ends a list follows
each of them. -/
structure Strays (cursor next : Cursor) (faults : List Fault) : Prop where
  ascending : faults.Pairwise fun fault later => fault.start < later.start
  before : ∀ fault ∈ faults, fault.start < next.index
  stray : ∀ fault ∈ faults, ∃ front closing back,
    cursor.rest = front ++ .comma :: closing :: back ∧ closing.isClosing = true ∧
      fault.start = cursor.index + front.length

namespace Strays

variable {cursor middle next : Cursor} {faults early late : List Fault} {taken : List Token}

theorem nil : Strays cursor next [] :=
  ⟨.nil, by simp, by simp⟩

theorem after (strays : Strays cursor next faults) :
    ∀ fault ∈ faults, cursor.index ≤ fault.start := by
  intro fault member
  obtain ⟨front, _, _, _, _, start⟩ := strays.stray fault member
  omega

theorem behind (spans : Spans cursor taken middle) (strays : Strays middle next faults) :
    Strays cursor next faults := by
  refine ⟨strays.ascending, strays.before, ?_⟩
  intro fault member
  obtain ⟨front, closing, back, rest, closes, start⟩ := strays.stray fault member
  refine ⟨taken ++ front, closing, back, ?_, closes, ?_⟩
  · rw [spans.1, rest, List.append_assoc]
  · rw [start, spans.2, List.length_append, Nat.add_assoc]

theorem extend (strays : Strays cursor middle faults) (spans : Spans middle taken next) :
    Strays cursor next faults := by
  refine ⟨strays.ascending, ?_, strays.stray⟩
  intro fault member
  have inside := strays.before fault member
  have further := spans.2
  omega

theorem append {others : List Token} (first : Strays cursor middle early)
    (second : Strays middle next late) (spans : Spans cursor taken middle)
    (rest : Spans middle others next) : Strays cursor next (early ++ late) := by
  have front := first.extend rest
  have back := second.behind spans
  refine ⟨List.pairwise_append.mpr ⟨first.ascending, second.ascending, ?_⟩,
    List.forall_mem_append.mpr ⟨front.before, back.before⟩,
    List.forall_mem_append.mpr ⟨front.stray, back.stray⟩⟩
  intro fault member later behind
  exact Nat.lt_of_lt_of_le (first.before fault member) (second.after later behind)

theorem enter (part : Part) (strays : Strays cursor next faults) :
    Strays cursor next (faults.map (Fault.enter part)) :=
  ⟨List.pairwise_map.mpr strays.ascending, List.forall_mem_map.mpr strays.before,
    List.forall_mem_map.mpr strays.stray⟩

/-- The comma that a list ends with. -/
theorem comma {fault : Fault} {closing : Token} (spans : Spans cursor [.comma] next)
    (follows : next.rest.head? = some closing) (closes : closing.isClosing = true)
    (start : fault.start = cursor.index) : Strays cursor next [fault] := by
  obtain ⟨back, rest⟩ := List.head?_eq_some_iff.mp follows
  refine ⟨List.pairwise_singleton _ _, ?_, ?_⟩
  · rw [List.forall_mem_singleton, spans.2, start]
    exact Nat.lt_succ_self cursor.index
  · rw [List.forall_mem_singleton]
    exact ⟨[], closing, back, by rw [spans.1, rest]; rfl, closes, start⟩

end Strays

namespace Parser

variable {α β : Type}

/-- Where the parser yields a value and is followed as it should be, it got past nothing
but stray commas among the tokens it took. -/
def Orderly (follow : Option Token → Prop) (parser : Parser α) : Prop :=
  ∀ cursor success, (parser cursor).outcome = .ok success →
    follow success.next.rest.head? → Strays cursor success.next (parser cursor).faults

section

variable {follow : Option Token → Prop} {parser : Parser α} {other : Parser β} {least more : Nat}

theorem Silent.orderly (silent : Silent parser) : Orderly follow parser := by
  intro cursor success _ _
  rw [silent cursor]
  exact .nil

/-! ## Values passed on -/

theorem Orderly.mapSpan (f : Cursor → Cursor → α → β) (orderly : Orderly follow parser) :
    Orderly follow (parser.mapSpan f) := by
  intro cursor success reply after
  obtain ⟨inner, read, same, _⟩ := mapSpan_ok f cursor success reply
  rw [← same] at after ⊢
  rw [faults_mapSpan]
  exact orderly cursor inner read after

theorem Orderly.map (f : α → β) (orderly : Orderly follow parser) :
    Orderly follow (parser.map f) :=
  orderly.mapSpan _

theorem Orderly.mapAt (f : Nat → α → β) (orderly : Orderly follow parser) :
    Orderly follow (parser.mapAt f) :=
  orderly.mapSpan _

theorem Orderly.within (part : Part) (orderly : Orderly follow parser) :
    Orderly follow (parser.within part) := by
  intro cursor success reply after
  obtain ⟨inner, read, same, _⟩ := within_ok part cursor success reply
  rw [← same] at after ⊢
  rw [faults_within]
  exact (orderly cursor inner read after).enter part

/-! ## Sequences -/

theorem Orderly.seq (orderly : Orderly (fun _ => True) parser) (takes : Takes least parser)
    (rest : Orderly follow other) (further : Takes more other) :
    Orderly follow (parser.seq other) := by
  intro cursor success reply after
  obtain ⟨begun, ended, left, right, same, _⟩ := seq_ok other cursor success reply
  rw [← same] at after ⊢
  obtain ⟨taken, _, spans⟩ := takes cursor begun left
  obtain ⟨others, _, later⟩ := further begun.next ended right
  rw [faults_seq cursor begun left]
  exact (orderly cursor begun left trivial).append (rest begun.next ended right after) spans later

theorem Orderly.seqRight (orderly : Orderly (fun _ => True) parser) (takes : Takes least parser)
    (rest : Orderly follow other) (further : Takes more other) :
    Orderly follow (parser.seqRight other) :=
  (orderly.seq takes rest further).map _

theorem Orderly.seqLeft (orderly : Orderly (fun _ => True) parser) (takes : Takes least parser)
    (rest : Orderly follow other) (further : Takes more other) :
    Orderly follow (parser.seqLeft other) :=
  (orderly.seq takes rest further).map _

/-- What is closed has been followed as it should be. -/
theorem Orderly.between (opening closing : Token) (orderly : Orderly (· = some closing) parser) :
    Orderly follow (parser.between opening closing) := by
  intro cursor success reply _
  obtain ⟨start, stop, opened, read, closed, _⟩ := between_ok opening closing cursor success reply
  rw [faults_between opening closing cursor start opened]
  have inside := orderly start stop read (by rw [closed.1]; rfl)
  exact (inside.behind opened).extend closed

/-! ## Alternatives and repetitions -/

theorem orderly_choice (alternatives : List (Parser α))
    (each : ∀ alternative ∈ alternatives, Orderly follow alternative) :
    Orderly follow (choice alternatives) := by
  intro cursor success reply after
  obtain ⟨alternative, member, same⟩ := firstOf_ok alternatives none cursor success reply
  rw [choice, same] at reply ⊢
  exact each alternative member cursor success reply after

theorem Orderly.orElse {second : Parser α} (orderly : Orderly follow parser)
    (rest : Orderly follow second) : Orderly follow (parser.orElse second) := by
  intro cursor success reply after
  obtain ⟨alternative, either, same, yields⟩ := orElse_either parser second cursor
  obtain ⟨inner, read, next⟩ := yields success reply
  rw [← next] at after ⊢
  rw [same]
  rcases either with rfl | rfl
  · exact orderly cursor inner read after
  · exact rest cursor inner read after

theorem Orderly.optional (orderly : Orderly follow parser) :
    Orderly follow (Parser.optional parser) := by
  intro cursor success reply after
  cases outcome : (parser cursor).outcome with
  | error stop =>
    simp only [Parser.optional, outcome]
    exact .nil
  | ok inner =>
    simp only [Parser.optional, outcome, Except.ok.injEq] at reply ⊢
    rw [← reply] at after ⊢
    exact orderly cursor inner outcome after

/-- What many items get past. -/
theorem Repeats.strays (orderly : Orderly (fun _ => True) parser) (takes : Takes least parser)
    {cursor next : Cursor} {faults : List Fault} {values : List α}
    (repeats : Repeats parser cursor faults values next) :
    Strays cursor next faults ∧ ∃ taken, Spans cursor taken next := by
  induction repeats with
  | done => exact ⟨.nil, [], (spans_nil _ _).mpr rfl⟩
  | @more cursor middle next faults later hint value others first rest ih =>
    obtain ⟨strays, back, behind⟩ := ih
    have read : (parser cursor).outcome = .ok ⟨value, hint, middle⟩ := by rw [first]
    have told := orderly cursor _ read trivial
    rw [first] at told
    obtain ⟨front, _, spans⟩ := takes cursor _ read
    exact ⟨told.append strays spans behind, front ++ back,
      (spans_append _ _ _ _).mpr ⟨middle, spans, behind⟩⟩

/-! ## Lists -/

variable {item : Parser α}

/-- A row of items yields them, with the stray commas in them and what the item has told that
it ends at. -/
structure TidyRow (item : Parser α) (cursor : Cursor) (reply : Reply (List α))
    (values : List α) (hint : Option Fault) (next : Cursor) (early late : List Fault) :
    Prop where
  outcome : reply.outcome = .ok ⟨values, hint, next⟩
  faults : reply.faults = early ++ late
  strays : Strays cursor next early
  spans : ∃ taken, Spans cursor taken next

theorem TidyRow.stop (cursor : Cursor) (hint : Option Fault) (late : List Fault) :
    TidyRow item cursor ⟨late, .ok ⟨[], hint, cursor⟩⟩ [] hint cursor [] late :=
  ⟨rfl, rfl, .nil, [], (spans_nil _ _).mpr rfl⟩

theorem TidyRow.cons {cursor start next : Cursor} {front early late : List Fault}
    {taken : List Token} {reply : Reply (List α)} {values : List α} {hint : Option Fault}
    (row : TidyRow item start reply values hint next early late) (value : α)
    (spans : Spans cursor taken start) (strays : Strays cursor start front) :
    TidyRow item cursor ((reply.after front).mapValue (value :: ·)) (value :: values) hint next
      (front ++ early) late := by
  obtain ⟨others, rest⟩ := row.spans
  refine ⟨?_, ?_, strays.append row.strays spans rest, taken ++ others,
    (spans_append _ _ _ _).mpr ⟨start, spans, rest⟩⟩
  · simp only [Reply.mapValue, Reply.after, row.outcome]
  · simp only [Reply.mapValue, Reply.after, row.outcome, row.faults, List.append_assoc]

theorem commaItems_tidyRow (orderly : Orderly (fun _ => True) item) (takes : Takes 0 item)
    (fuel : Nat) (hint : Option Fault) (cursor : Cursor) (enough : cursor.rest.length ≤ fuel) :
    ∃ values last next early late,
      TidyRow item cursor (commaItems item fuel hint cursor) values last next early late ∧
        RowEnds item next late := by
  induction fuel generalizing hint cursor with
  | zero =>
    have empty : cursor.rest = [] := List.eq_nil_of_length_eq_zero (Nat.le_zero.mp enough)
    exact ⟨[], hint, cursor, [], [], .stop cursor hint [], .noComma (by simp [empty])⟩
  | succ fuel ih =>
    unfold commaItems
    split
    · rename_i rest found
      have comma : Spans cursor [.comma] ⟨cursor.index + 1, rest⟩ :=
        (spans_singleton _ _ _).mpr ⟨rest, found, rfl⟩
      cases outcome : (item ⟨cursor.index + 1, rest⟩).outcome with
      | error fault =>
        simp only [outcome]
        exact ⟨[], _, cursor, [], _, .stop cursor _ _, .noItem comma outcome⟩
      | ok success =>
        simp only [outcome]
        obtain ⟨taken, _, spans⟩ := takes _ success outcome
        have shorter := takes.rest_length _ success outcome
        rw [found, List.length_cons] at enough
        dsimp only at shorter
        obtain ⟨values, last, next, early, late, row, ends⟩ :=
          ih (Fault.latest hint success.hint) success.next (by omega)
        have whole : Spans cursor (.comma :: taken) success.next :=
          (spans_cons _ _ _ _).mpr ⟨_, comma, spans⟩
        exact ⟨success.value :: values, last, next, _, late, row.cons success.value whole
          ((orderly _ success outcome trivial).behind comma), ends⟩
    · rename_i absent
      refine ⟨[], _, cursor, [], [], .stop cursor _ [], .noComma ?_⟩
      intro comma
      obtain ⟨rest, found⟩ := List.head?_eq_some_iff.mp comma
      exact absent rest found

/-- Items are read until one fails, if only the first. -/
theorem separated_tidyRow (orderly : Orderly (fun _ => True) item) (takes : Takes 0 item)
    (cursor : Cursor) :
    ∃ values hint next early late,
      TidyRow item cursor (separated item cursor) values hint next early late ∧
        (RowEnds item next late ∨ next = cursor ∧ late = (item cursor).faults) := by
  unfold separated
  cases outcome : (item cursor).outcome with
  | error fault =>
    simp only [outcome]
    exact ⟨[], some fault, cursor, [], _, .stop cursor _ _, .inr ⟨rfl, rfl⟩⟩
  | ok success =>
    simp only [outcome]
    obtain ⟨taken, _, spans⟩ := takes cursor success outcome
    have shorter := takes.rest_length cursor success outcome
    obtain ⟨values, last, next, early, late, row, ends⟩ := commaItems_tidyRow orderly takes
      cursor.rest.length success.hint success.next (by omega)
    exact ⟨success.value :: values, last, next, _, late, row.cons success.value spans
      (orderly cursor success outcome trivial), .inl ends⟩

theorem RefusesToken.faults {lexeme : Token} (refuses : RefusesToken item lexeme)
    (cursor : Cursor) (found : cursor.rest.head? = some lexeme) : (item cursor).faults = [] := by
  obtain ⟨fault, reply⟩ := refuses cursor found
  rw [reply]

theorem commaFault_start (trailing : TrailingComma) (reach comma : Nat) (noItem : Bool) :
    ∀ fault ∈ commaFault trailing reach comma noItem, fault.start = comma := by
  unfold commaFault
  split
  · rintro fault ⟨⟩
    rfl
  · split
    · rintro fault ⟨⟩
    · rintro fault ⟨⟩
      rfl

/-- A list is orderly if it is closed and no item can begin with what closes it. -/
theorem orderly_commaList (trailing : TrailingComma) (closing : Token)
    (closes : closing.isClosing = true) (orderly : Orderly (fun _ => True) item)
    (takes : Takes 0 item) (comma : RefusesToken item .comma)
    (closed : RefusesToken item closing) :
    Orderly (· = some closing) (commaList trailing item) := by
  intro cursor success reply follows
  obtain ⟨values, hint, stop, early, late, row, ends⟩ := separated_tidyRow orderly takes cursor
  obtain ⟨taken, spans⟩ := row.spans
  obtain ⟨later, _, ⟨next, last, read⟩ | ⟨absent, read⟩⟩ := optionalComma stop
  · have whole : commaList trailing item cursor =
        ⟨(separated item cursor).faults ++
          (commaFault trailing next.index stop.index values.isEmpty).toList,
          .ok ⟨values, Fault.latest hint later, next⟩⟩ := by
      simp [commaList, Parser.seq, row.outcome, read]
    rw [whole] at reply ⊢
    cases reply
    have head : stop.rest.head? = some .comma := by rw [last.1]; rfl
    -- The item behind the comma would have to begin with what closes the list.
    have silent : late = [] := by
      rcases ends with ends | ⟨rfl, rfl⟩
      · cases ends with
        | noComma absent => rfl
        | noItem again failed =>
          obtain rfl := last.unique again
          exact closed.faults next follows
      · exact comma.faults stop head
    rw [row.faults, silent, List.append_nil]
    refine row.strays.append ?_ spans last
    cases told : commaFault trailing next.index stop.index values.isEmpty with
    | none => exact .nil
    | some fault =>
      exact .comma last follows closes (commaFault_start _ _ _ _ fault told)
  · have whole : commaList trailing item cursor =
        ⟨(separated item cursor).faults, .ok ⟨values, Fault.latest hint later, stop⟩⟩ := by
      simp [commaList, Parser.seq, row.outcome, read]
    rw [whole] at reply ⊢
    cases reply
    have silent : late = [] := by
      rcases ends with ends | ⟨rfl, rfl⟩
      · cases ends with
        | noComma absent => rfl
        | noItem again failed => exact absurd (by rw [again.1]; rfl) absent
      · exact closed.faults stop follows
    rw [row.faults, silent, List.append_nil]
    exact row.strays

end

/-! ## Values -/

section

variable {follow : Option Token → Prop}

theorem orderly_exactly (lexeme : Token) : Orderly follow (exactly lexeme) :=
  (silent_exactly lexeme).orderly

theorem orderly_identifierName : Orderly follow identifierName :=
  silent_identifierName.orderly

theorem orderly_keyword (name : String) : Orderly follow (keyword name) :=
  (silent_accept _ _).orderly

theorem orderly_stringLiteral : Orderly follow stringLiteral :=
  silent_stringLiteral.orderly

theorem orderly_numberLiteral : Orderly follow numberLiteral :=
  (((silent_accept _ _).mapAt _).within _).orderly

theorem orderly_booleanLiteral : Orderly follow booleanLiteral :=
  ((silent_accept _ _).mapAt _).orderly

theorem orderly_identifier : Orderly follow identifier :=
  orderly_identifierName.mapAt _

theorem orderly_phrase : Orderly follow phrase := by
  refine orderly_choice _ ?_
  simp only [List.mem_cons, List.not_mem_nil, or_false, forall_eq_or_imp, forall_eq]
  exact ⟨orderly_stringLiteral.map _, orderly_identifier.map _⟩

theorem orderly_element : Orderly follow element := by
  refine orderly_choice _ ?_
  simp only [List.mem_cons, List.not_mem_nil, or_false, forall_eq_or_imp, forall_eq]
  exact ⟨orderly_stringLiteral.map _, orderly_numberLiteral.map _, orderly_booleanLiteral.map _,
    orderly_identifier.map _⟩

theorem element_comma : RefusesToken element .comma := by
  apply refusesToken_choice
  simp

theorem phrase_comma : RefusesToken phrase .comma := by
  apply refusesToken_choice
  simp

theorem orderly_arrayLiteral : Orderly follow arrayLiteral := by
  have list : Orderly (· = some .rightBracket) (commaList (.rejected .array) element) :=
    orderly_commaList _ .rightBracket rfl orderly_element (takes_element.weaken (Nat.zero_le 1))
      element_comma element_closed
  exact ((list.between _ _).mapAt _).within _

theorem orderly_arrayOrName : Orderly follow arrayOrName :=
  (orderly_arrayLiteral.map _).orElse (orderly_identifier.map _)

theorem orderly_patterns : Orderly follow patterns := by
  have list : Orderly (· = some .rightBracket) (commaList (.rejected .array) phrase) :=
    orderly_commaList _ .rightBracket rfl orderly_phrase (takes_phrase.weaken (Nat.zero_le 1))
      phrase_comma phrase_closed
  exact list.between _ _

/-- What a name is bound to. -/
theorem orderly_binding {least : Nat} {parser : Parser α} (orderly : Orderly follow parser)
    (takes : Takes least parser) :
    Orderly follow ((identifierName.seqLeft (exactly .equals)).seq parser) := by
  have name : Orderly (fun _ => True) (identifierName.seqLeft (exactly .equals)) :=
    (silent_identifierName.seqLeft (silent_exactly .equals)).orderly
  exact name.seq (takes_identifierName.seqLeft (takes_exactly .equals)) orderly takes

theorem orderly_globArgument : Orderly follow globArgument :=
  (orderly_patterns.map _).orElse ((orderly_binding orderly_patterns takes_patterns).map _)

theorem orderly_glob : Orderly follow glob := by
  have comma : RefusesToken globArgument .comma := .orElse (by simp) (by simp)
  have list : Orderly (· = some .rightParen) (commaList .allowed globArgument) :=
    orderly_commaList _ .rightParen rfl orderly_globArgument
      (takes_globArgument.weaken (Nat.zero_le 1)) comma globArgument_closed
  have call := takes_callArguments
    (takes_commaList .allowed (takes_globArgument.weaken (Nat.zero_le 1)))
  exact (((orderly_exactly .glob).seqRight (takes_exactly .glob) (list.between _ _)
    call).mapAt _).within _

end

section

variable {follow : Option Token → Prop} {value : Parser (Value Nat)}

theorem orderly_entry (orderly : Orderly follow value) (takes : Takes 0 value) :
    Orderly follow (entry value) := by
  have key : Orderly (fun _ => True) (stringLiteral.seqLeft (exactly .colon)) :=
    (silent_stringLiteral.seqLeft (silent_exactly .colon)).orderly
  exact (key.seq (takes_stringLiteral.seqLeft (takes_exactly .colon)) orderly takes).map _

theorem orderly_dict (orderly : Orderly (fun _ => True) value) (takes : Takes 0 value) :
    Orderly follow (dict value) := by
  have comma : RefusesToken (entry value) .comma :=
    .map _ (.seq _ (.seqLeft _ (refusesToken_string (by simp))))
  have list : Orderly (· = some .rightBrace) (commaList .allowed (entry value)) :=
    orderly_commaList _ .rightBrace rfl (orderly_entry orderly takes)
      ((takes_entry takes).weaken (Nat.zero_le 1)) comma (entry_closed value)
  exact ((list.between _ _).mapAt _).within _

theorem orderly_noMatchError : Orderly follow noMatchError := by
  have comma := takes_exactly .comma
  have word := comma.seqRight (takes_keyword "no_match_error")
  have name : Orderly (fun _ => True)
      (((exactly .comma).seqRight (keyword "no_match_error")).seqRight (exactly .equals)) :=
    ((orderly_exactly .comma).seqRight comma (orderly_keyword _) (takes_keyword _)).seqRight word
      (orderly_exactly .equals) (takes_exactly .equals)
  exact name.seqRight (word.seqRight (takes_exactly .equals)) orderly_phrase takes_phrase

theorem orderly_select (orderly : Orderly (fun _ => True) value) (takes : Takes 0 value) :
    Orderly follow (select value) := by
  have choices : Orderly (fun _ => True) (constraint value) :=
    ((orderly_dict orderly takes).map _).orElse (orderly_identifier.map _)
  have inside : Orderly (· = some .rightParen)
      ((constraint value).seq (optional noMatchError)) :=
    choices.seq (takes_constraint takes) orderly_noMatchError.optional takes_noMatchError.optional
  have call := takes_callArguments ((takes_constraint takes).seq takes_noMatchError.optional)
  exact (((orderly_keyword "select").seqRight (takes_keyword "select")
    (inside.between .leftParen .rightParen) call).mapAt _).within _

theorem orderly_valueOver (orderly : Orderly (fun _ => True) value) (takes : Takes 0 value) :
    Orderly follow (valueOver value) := by
  refine (orderly_choice _ ?_).within _
  simp only [List.mem_cons, List.not_mem_nil, or_false, forall_eq_or_imp, forall_eq]
  exact ⟨orderly_stringLiteral.map _, orderly_numberLiteral.map _, orderly_booleanLiteral.map _,
    orderly_arrayLiteral.map _, orderly_glob.map _, (orderly_dict orderly takes).map _,
    (orderly_select orderly takes).map _, orderly_identifier.map _⟩

theorem orderly_valueWithin (depth : Nat) : Orderly follow (valueWithin depth) := by
  induction depth generalizing follow with
  | zero => rintro cursor success ⟨⟩
  | succ depth ih =>
    exact orderly_valueOver ih ((takes_valueWithin depth).weaken (Nat.zero_le 1))

theorem orderly_value : Orderly follow Parser.value :=
  fun cursor => orderly_valueWithin (cursor.rest.length + 1) cursor

end

/-! ## Statements -/

section

variable {follow : Option Token → Prop}

theorem symbol_comma : RefusesToken loadedSymbol .comma := by
  apply RefusesToken.orElse
  · simp
  · exact .mapAt _ (refusesToken_binding _ (by simp))

theorem orderly_load : Orderly follow load := by
  have label : Orderly (fun _ => True) (stringLiteral.seqLeft (exactly .comma)) :=
    (silent_stringLiteral.seqLeft (silent_exactly .comma)).orderly
  have taken := takes_stringLiteral.seqLeft (takes_exactly .comma)
  have symbols : Orderly (· = some .rightParen) (commaList (.rejected .load) loadedSymbol) :=
    orderly_commaList _ .rightParen rfl silent_loadedSymbol.orderly
      (takes_loadedSymbol.weaken (Nat.zero_le 1)) symbol_comma symbol_closed
  have more := takes_commaList (.rejected .load) (takes_loadedSymbol.weaken (Nat.zero_le 1))
  have call := label.seq taken symbols more
  exact (((orderly_exactly .load).seqRight (takes_exactly .load)
    (call.between .leftParen .rightParen) (takes_callArguments (taken.seq more))).mapAt _).within _

theorem orderly_argument : Orderly follow argument :=
  (orderly_binding orderly_value takes_value).map _

theorem orderly_argumentList {item : Parser α} (trailing : TrailingComma)
    (orderly : Orderly (fun _ => True) item) (takes : Takes 1 item)
    (refuses : ∀ lexeme, (∀ name, lexeme ≠ .identifier name) → RefusesToken item lexeme) :
    Orderly follow (argumentList .off trailing item) := by
  have list : Orderly (· = some .rightParen) (commaList trailing item) :=
    orderly_commaList trailing .rightParen rfl orderly (takes.weaken (Nat.zero_le 1))
      (refuses .comma (by simp)) (refuses .rightParen (by simp))
  exact list.between _ _

theorem orderly_rule : Orderly follow (rule .off) := by
  have attributes : Orderly follow (argumentList .off (.rejected .rule) ruleAttribute) :=
    orderly_argumentList _ (orderly_argument.mapAt _) (takes_argument.mapAt _)
      fun _ other => .mapAt _ (refusesToken_argument other)
  have name : Orderly (fun _ => True) ruleName := ((silent_accept _ _).within _).orderly
  have taken := takes_argumentList .off (.rejected .rule) (takes_argument.mapAt
    fun index argument => Attribute.mk argument.name argument.value (some index))
  exact (name.seq takes_ruleName attributes taken).mapAt _

theorem orderly_keywordCall (name : String) :
    Orderly follow ((keyword name).seqRight (argumentList .off .allowed argument)) := by
  have arguments : Orderly follow (argumentList .off .allowed argument) :=
    orderly_argumentList _ orderly_argument takes_argument fun _ other =>
      refusesToken_argument other
  exact (orderly_keyword name).seqRight (takes_keyword name) arguments
    (takes_argumentList .off .allowed takes_argument)

theorem orderly_exportsFiles : Orderly follow exportsFiles := by
  have comma := takes_exactly .comma
  have word := comma.seqRight takes_identifierName
  have equals := word.seqLeft (takes_exactly .equals)
  have name : Orderly (fun _ => True)
      (((exactly .comma).seqRight identifierName).seqLeft (exactly .equals)) :=
    ((orderly_exactly .comma).seqRight comma orderly_identifierName takes_identifierName).seqLeft
      word (orderly_exactly .equals) (takes_exactly .equals)
  have further : Orderly (fun _ => True) visibility :=
    name.seqRight equals orderly_arrayOrName takes_arrayOrName
  have taken := takes_arrayOrName.seq takes_visibility.optional
  have files : Orderly (fun _ => True) (arrayOrName.seq (optional visibility)) :=
    orderly_arrayOrName.seq takes_arrayOrName further.optional takes_visibility.optional
  have inside : Orderly (· = some .rightParen)
      ((arrayOrName.seq (optional visibility)).seqLeft (optional (exactly .comma))) :=
    files.seqLeft taken (orderly_exactly .comma).optional comma.optional
  exact ((orderly_keyword "exports_files").seqRight (takes_keyword "exports_files")
    (inside.between .leftParen .rightParen)
    (takes_callArguments (taken.seqLeft comma.optional))).mapAt _

theorem orderly_statement : Orderly follow (statement .off) := by
  refine orderly_choice _ ?_
  simp only [List.mem_cons, List.not_mem_nil, or_false, forall_eq_or_imp, forall_eq]
  exact ⟨orderly_load.map _, ((orderly_keywordCall "package").mapAt _).map _,
    ((orderly_keywordCall "package_group").mapAt _).map _, orderly_exportsFiles.map _,
    orderly_rule.map _, (orderly_argument.mapAt _).map _⟩

theorem orderly_documentStep : Orderly follow (documentStep .off) :=
  orderly_statement.mapSpan _

end

end Parser

end BuildLang
