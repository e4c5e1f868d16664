import BuildLang.Proofs.Grammar.Honest

/-!
# Blame in the grammar

Every parser of the grammar is honest where nothing is skipped, and whatever a document
tells of commas is right up to the commas of a skipped argument list.  The items of a list
are what matters: one that fails must not have blamed a comma inside it, and the comma in
front of it is blamed for it.
-/

set_option autoImplicit false

namespace BuildLang.Parser

variable {α : Type}

/-! ## Lists -/

/-- Why a row of items goes no further, and what the item that failed has told. -/
inductive RowEnds (item : Parser α) (cursor : Cursor) : List Fault → Prop where
  | noComma (absent : cursor.rest.head? ≠ some .comma) : RowEnds item cursor []
  | noItem {start : Cursor} {fault : Fault} (comma : Spans cursor [.comma] start)
      (failed : (item start).outcome = .error fault) : RowEnds item cursor (item start).faults

/-- The faults of a row of items: those of the items read are fair, and the others come from
the item it ends at. -/
structure Row (recovery : Recovery) (item : Parser α) (cursor : Cursor) (reply : Reply (List α))
    (values : List α) (hint : Option Fault) (next : Cursor) (late : List Fault) : Prop where
  outcome : reply.outcome = .ok ⟨values, hint, next⟩
  faults : ∀ fault ∈ reply.faults, fault.Fair recovery cursor ∨ fault ∈ late
  spans : ∃ taken, Spans cursor taken next
  plain : ∀ fault ∈ hint, fault.Plain

section

variable {recovery : Recovery} {item : Parser α} {trailing : TrailingComma}

/-- One more item in front of a row. -/
theorem Row.cons {cursor start next : Cursor} {front late : List Fault} {taken : List Token}
    {reply : Reply (List α)} {values : List α} {hint : Option Fault}
    (row : Row recovery item start reply values hint next late) (value : α)
    (spans : Spans cursor taken start) (fair : ∀ fault ∈ front, fault.Fair recovery cursor) :
    Row recovery item cursor ((reply.after front).mapValue (value :: ·)) (value :: values) hint
      next late := by
  obtain ⟨others, rest⟩ := row.spans
  refine ⟨?_, ?_, ⟨taken ++ others, (spans_append _ _ _ _).mpr ⟨start, spans, rest⟩⟩, row.plain⟩
  · simp only [Reply.mapValue, Reply.after, row.outcome]
  · intro fault member
    simp only [Reply.mapValue, Reply.after, row.outcome, List.mem_append] at member
    rcases member with early | later
    · exact .inl (fair fault early)
    · exact (row.faults fault later).imp_left (·.behind spans)

theorem commaItems_row (honest : Honest recovery (fun _ => True) item) (takes : Takes 0 item)
    (fuel : Nat) (hint : Option Fault) (cursor : Cursor) (enough : cursor.rest.length ≤ fuel)
    (plain : ∀ fault ∈ hint, fault.Plain) :
    ∃ values last next late,
      Row recovery item cursor (commaItems item fuel hint cursor) values last next late ∧
        RowEnds item next late := by
  induction fuel generalizing hint cursor with
  | zero =>
    have empty : cursor.rest = [] := List.eq_nil_of_length_eq_zero (Nat.le_zero.mp enough)
    exact ⟨[], hint, cursor, [], ⟨rfl, by simp [commaItems], ⟨[], (spans_nil _ _).mpr rfl⟩, plain⟩,
      .noComma (by simp [empty])⟩
  | succ fuel ih =>
    unfold commaItems
    split
    · rename_i rest found
      have comma : Spans cursor [.comma] ⟨cursor.index + 1, rest⟩ :=
        (spans_singleton _ _ _).mpr ⟨rest, found, rfl⟩
      cases outcome : (item ⟨cursor.index + 1, rest⟩).outcome with
      | error fault =>
        simp only [outcome]
        refine ⟨[], _, cursor, _, ⟨rfl, fun fault member => .inr member,
          ⟨[], (spans_nil _ _).mpr rfl⟩, Fault.plain_latest plain ?_⟩, .noItem comma outcome⟩
        rintro told ⟨⟩
        exact honest.hints.stops _ fault outcome
      | ok success =>
        simp only [outcome]
        obtain ⟨taken, _, spans⟩ := takes _ success outcome
        have shorter := takes.rest_length _ success outcome
        rw [found, List.length_cons] at enough
        dsimp only at shorter
        obtain ⟨values, last, next, late, row, ends⟩ := ih (Fault.latest hint success.hint)
          success.next (by omega) (Fault.plain_latest plain (honest.hints.hint _ success outcome))
        have whole : Spans cursor (.comma :: taken) success.next :=
          (spans_cons _ _ _ _).mpr ⟨_, comma, spans⟩
        exact ⟨success.value :: values, last, next, late, row.cons success.value whole
          fun fault member => (honest.told _ success outcome trivial fault member).behind comma,
          ends⟩
    · rename_i absent
      refine ⟨[], _, cursor, [], ⟨rfl, by simp, ⟨[], (spans_nil _ _).mpr rfl⟩,
        Fault.plain_latest plain ?_⟩, .noComma ?_⟩
      · rintro told ⟨⟩
        exact Fault.plain_unexpected _ _ _
      · intro comma
        obtain ⟨rest, found⟩ := List.head?_eq_some_iff.mp comma
        exact absent rest found

/-- Items are read until one fails, if only the first. -/
theorem separated_row (honest : Honest recovery (fun _ => True) item) (takes : Takes 0 item)
    (cursor : Cursor) :
    ∃ values hint next late,
      Row recovery item cursor (separated item cursor) values hint next late ∧
        (RowEnds item next late ∨ values = [] ∧ next = cursor ∧ late = (item cursor).faults ∧
          ∃ fault, (item cursor).outcome = .error fault) := by
  unfold separated
  cases outcome : (item cursor).outcome with
  | error fault =>
    simp only [outcome]
    refine ⟨[], some fault, cursor, _, ⟨rfl, fun fault member => .inr member,
      ⟨[], (spans_nil _ _).mpr rfl⟩, ?_⟩, .inr ⟨rfl, rfl, rfl, fault, rfl⟩⟩
    rintro told ⟨⟩
    exact honest.hints.stops cursor fault outcome
  | ok success =>
    simp only [outcome]
    obtain ⟨taken, _, spans⟩ := takes cursor success outcome
    have shorter := takes.rest_length cursor success outcome
    obtain ⟨values, last, next, late, row, ends⟩ := commaItems_row honest takes cursor.rest.length
      success.hint success.next (by omega) (honest.hints.hint cursor success outcome)
    exact ⟨success.value :: values, last, next, late, row.cons success.value spans
      (honest.told cursor success outcome trivial), .inl ends⟩

/-- What a list can tell: fair faults, those of the item it ends at, and that of a comma with
no item behind it. -/
inductive ListTells (recovery : Recovery) (trailing : TrailingComma) (item : Parser α)
    (cursor next : Cursor) (fault : Fault) : Prop where
  | fair (fair : fault.Fair recovery cursor)
  | item {stop : Cursor} {failure : Fault} (failed : (item stop).outcome = .error failure)
      (place : stop = next ∨ stop.rest.head? = some .comma) (member : fault ∈ (item stop).faults)
  | comma {list : StrictList} {front : List Token} {failure : Fault}
      (strict : trailing = .rejected list) (spans : Spans cursor (front ++ [.comma]) next)
      (start : fault.start = cursor.index + front.length)
      (reason : fault.reason = .trailingComma list)
      (failed : (item next).outcome = .error failure)

/-- A comma is taken where there is one. -/
theorem optionalComma (cursor : Cursor) :
    ∃ hint, (∀ fault ∈ hint, fault.Plain) ∧
      ((∃ next, Spans cursor [.comma] next ∧
        Parser.optional (mapAt (fun index _ => index) (exactly .comma)) cursor =
          ⟨[], .ok ⟨some cursor.index, hint, next⟩⟩) ∨
      cursor.rest.head? ≠ some .comma ∧
        Parser.optional (mapAt (fun index _ => index) (exactly .comma)) cursor =
          ⟨[], .ok ⟨none, hint, cursor⟩⟩) := by
  by_cases comma : cursor.rest.head? = some .comma
  · obtain ⟨rest, found⟩ := List.head?_eq_some_iff.mp comma
    refine ⟨none, by simp, .inl ⟨⟨cursor.index + 1, rest⟩, (spans_singleton _ _ _).mpr
      ⟨rest, found, rfl⟩, ?_⟩⟩
    simp [Parser.optional, mapAt, mapSpan, exactly, found, Reply.success]
  · obtain ⟨fault, reply⟩ := refuses_mapAt (fun index _ => index) _ cursor
      (refuses_exactly .comma cursor comma)
    have honest : Honest .off (fun _ => True) (mapAt (fun index _ => index) (exactly .comma)) :=
      (honest_exactly .comma).mapAt _
    have plain : fault.Plain := honest.hints.stops cursor fault (by rw [reply])
    refine ⟨some fault, ?_, .inr ⟨comma, ?_⟩⟩
    · rintro told ⟨⟩
      exact plain
    · simp [Parser.optional, reply]

theorem commaList_tells (trailing : TrailingComma)
    (honest : Honest recovery (fun _ => True) item) (takes : Takes 0 item) (cursor : Cursor) :
    ∃ success, (commaList trailing item cursor).outcome = .ok success ∧
      (∀ fault ∈ success.hint, fault.Plain) ∧
      ∀ fault ∈ (commaList trailing item cursor).faults,
        ListTells recovery trailing item cursor success.next fault := by
  obtain ⟨values, hint, stop, late, row, ends⟩ := separated_row honest takes cursor
  obtain ⟨taken, spans⟩ := row.spans
  obtain ⟨later, plain, ⟨next, comma, read⟩ | ⟨absent, read⟩⟩ := optionalComma stop
  · have reply : commaList trailing item cursor =
        ⟨(separated item cursor).faults ++
          (commaFault trailing next.index stop.index values.isEmpty).toList,
          .ok ⟨values, Fault.latest hint later, next⟩⟩ := by
      simp [commaList, Parser.seq, row.outcome, read]
    rw [reply]
    refine ⟨_, rfl, Fault.plain_latest row.plain plain, ?_⟩
    intro fault member
    rcases List.mem_append.mp member with items | own
    · rcases row.faults fault items with fair | last
      · exact .fair fair
      · rcases ends with ends | ⟨_, rfl, rfl, failure, failed⟩
        · cases ends with
          | noComma absent => cases last
          | noItem again failed =>
            obtain rfl := comma.unique again
            exact .item failed (.inl rfl) last
        · exact .item failed (.inr (by rw [comma.1]; rfl)) last
    · cases values with
      | nil =>
        obtain rfl : fault = _ := by simpa [commaFault] using own
        exact .fair (Fault.Plain.fair (by simp [Fault.Plain]))
      | cons value others =>
        cases trailing with
        | allowed => simp [commaFault] at own
        | rejected list =>
          obtain rfl : fault = _ := by simpa [commaFault] using own
          rcases ends with ends | ⟨none, _⟩
          · cases ends with
            | noComma absent => exact absurd (by rw [comma.1]; rfl) absent
            | noItem again failed =>
              obtain rfl := comma.unique again
              exact .comma rfl ((spans_append _ _ _ _).mpr ⟨stop, spans, comma⟩) spans.2 rfl failed
          · cases none
  · have reply : commaList trailing item cursor =
        ⟨(separated item cursor).faults, .ok ⟨values, Fault.latest hint later, stop⟩⟩ := by
      simp [commaList, Parser.seq, row.outcome, read]
    rw [reply]
    refine ⟨_, rfl, Fault.plain_latest row.plain plain, ?_⟩
    intro fault member
    rcases row.faults fault member with fair | last
    · exact .fair fair
    · rcases ends with ends | ⟨_, rfl, rfl, failure, failed⟩
      · cases ends with
        | noComma absent => cases last
        | noItem again failed => exact absurd (by rw [again.1]; rfl) absent
      · exact .item failed (.inl rfl) last

/-- A list is honest if it is closed as its name says and no item fails with blame on the
token that closes it or on a comma. -/
theorem honest_commaList (closing : Token) (honest : Honest recovery (fun _ => True) item)
    (takes : Takes 0 item)
    (muted : ∀ cursor fault, (item cursor).outcome = .error fault →
      cursor.rest.head? = some .comma ∨ cursor.rest.head? = some closing →
      ∀ told ∈ (item cursor).faults, told.Plain)
    (strict : ∀ list, trailing = .rejected list → list.closing = closing) :
    Honest recovery (· = some closing) (commaList trailing item) := by
  constructor
  · intro cursor success reply closes fault member
    obtain ⟨same, read, _, tells⟩ := commaList_tells trailing honest takes cursor
    obtain rfl : same = success := Except.ok.inj (read.symm.trans reply)
    cases tells fault member with
    | fair fair => exact fair
    | item failed place told =>
      refine (muted _ _ failed ?_ fault told).fair
      rcases place with rfl | comma
      · exact .inr closes
      · exact .inl comma
    | @comma list front failure rejected spans start reason failed =>
      obtain ⟨back, found⟩ := List.head?_eq_some_iff.mp closes
      intro other blames
      obtain rfl : list = other := by
        rw [reason] at blames
        exact Reason.trailingComma.inj blames
      refine .trailing front back ?_ start
      rw [spans.1, found, strict list rejected]
      simp
  · intro cursor fault member
    obtain ⟨success, read, plain, _⟩ := commaList_tells trailing honest takes cursor
    rw [Reply.hint, read] at member
    exact plain fault member

/-! ## Argument lists -/

theorem Balance.plain_step (balance : Balance) (index : Nat) (lexeme : Token)
    (plain : ∀ fault ∈ balance.unclosed, fault.Plain) :
    ∀ fault ∈ (balance.step index lexeme).unclosed, fault.Plain := by
  have noted (other : Balance) (found : Option Token) (same : other.unclosed = balance.unclosed) :
      ∀ fault ∈ (other.note index found).unclosed, fault.Plain := by
    unfold Balance.note
    split
    · rintro fault ⟨⟩ list
      simp [Balance.unclosedAt]
    · rw [same]
      exact plain
  unfold Balance.step
  split
  · exact plain
  · dsimp only
    split
    · exact noted _ _ rfl
    · exact plain
  · exact plain
  · dsimp only
    split
    · exact noted _ _ rfl
    · exact plain
  · exact plain

theorem plain_closingParen (balance : Balance) (index : Nat) (tokens : List Token)
    (plain : ∀ fault ∈ balance.unclosed, fault.Plain) :
    ∀ fault ∈ (closingParen balance index tokens).1, fault.Plain := by
  fun_induction closingParen balance index tokens with
  | case1 balance index =>
    unfold Balance.note
    split
    · rintro fault ⟨⟩ list
      simp [Balance.unclosedAt]
    · exact plain
  | case2 balance index rest ih => exact ih plain
  | case3 balance index rest last => exact plain
  | case4 balance index rest more ih => exact ih plain
  | case5 balance index lexeme rest _ _ ih => exact ih (balance.plain_step index lexeme plain)

theorem plain_skipParens (cursor : Cursor) : ∀ fault ∈ (skipParens cursor).1, fault.Plain := by
  unfold skipParens
  split
  · exact plain_closingParen _ _ _ (by simp)
  · simp

/-- A list that was skipped tells what it told before it failed. -/
theorem Honest.recoverParens {follow : Option Token → Prop} {list : Parser (List α)}
    (honest : Honest recovery follow list)
    (fair : ∀ cursor fault, (list cursor).outcome = .error fault →
      ∀ told ∈ (list cursor).faults, told.Fair recovery cursor) :
    Honest recovery follow (recoverParens list) := by
  constructor
  · intro cursor success reply after told member
    cases plain : (list cursor).outcome with
    | ok found =>
      rw [Parser.recoverParens, plain] at reply member
      obtain rfl : found = success := Except.ok.inj (plain.symm.trans reply)
      exact honest.told cursor found plain after told member
    | error fault =>
      have skipped : ∀ told ∈ (list cursor).faults ++ (skipParens cursor).1.toList,
          told.Fair recovery cursor := by
        intro told member
        rcases List.mem_append.mp member with early | unclosed
        · exact fair cursor fault plain told early
        · exact (plain_skipParens cursor told (Option.mem_toList.mp unclosed)).fair
      have stop : fault.Fair recovery cursor := (honest.hints.stops cursor fault plain).fair
      simp only [Parser.recoverParens, plain] at member
      split at member
      · exact skipped told member
      · split at member
        · dsimp only at member
          split at member
          · rcases List.mem_append.mp member with early | last
            · exact skipped told early
            · obtain rfl := List.mem_singleton.mp last
              exact stop
          · exact skipped told member
        · obtain rfl := List.mem_singleton.mp member
          exact stop
  · intro cursor fault member
    cases plain : (list cursor).outcome with
    | ok found =>
      rw [Parser.recoverParens, plain] at member
      exact honest.hints cursor fault member
    | error stop =>
      simp only [Parser.recoverParens, plain] at member
      split at member
      · cases member
        exact honest.hints.stops cursor _ plain
      · split at member
        · cases member
        · cases member

/-- Where a list of arguments cannot be read, a comma may have been blamed that nothing but
an attribute that cannot be read follows. -/
theorem fair_callArguments (honest : Honest .on (fun _ => True) item) (takes : Takes 0 item)
    (muted : Muted item)
    (attributes : ∀ list cursor fault, trailing = .rejected list →
      (item cursor).outcome = .error fault →
        list = .rule ∧ ∃ fault, (ruleAttribute cursor).outcome = .error fault)
    (cursor : Cursor) :
    ∀ told ∈ (callArguments (commaList trailing item) cursor).faults, told.Fair .on cursor := by
  intro told member
  by_cases opens : cursor.rest.head? = some .leftParen
  · obtain ⟨rest, found⟩ := List.head?_eq_some_iff.mp opens
    have opened : Spans cursor [.leftParen] ⟨cursor.index + 1, rest⟩ :=
      (spans_singleton _ _ _).mpr ⟨rest, found, rfl⟩
    rw [callArguments, faults_between _ _ _ _ opened] at member
    obtain ⟨success, _, _, tells⟩ := commaList_tells trailing honest takes
      ⟨cursor.index + 1, rest⟩
    refine Fault.Fair.behind opened ?_
    cases tells told member with
    | fair fair => exact fair
    | item failed _ inner => exact (muted _ _ failed told inner).fair
    | @comma list front failure strict spans start reason failed =>
      obtain ⟨rfl, fails⟩ := attributes list _ failure strict failed
      intro other blames
      obtain rfl : .rule = other := by
        rw [reason] at blames
        exact Reason.trailingComma.inj blames
      have tokens : rest = front ++ .comma :: success.next.rest := by
        simpa using spans.1
      by_cases closes : success.next.rest.head? = some .rightParen
      · obtain ⟨back, last⟩ := List.head?_eq_some_iff.mp closes
        rw [last] at tokens
        exact .trailing front back tokens start
      · have next : success.next = ⟨told.start + 1, success.next.rest⟩ := by
          refine spans.unique ⟨spans.1, ?_⟩
          rw [start, List.length_append, List.length_singleton, Nat.add_assoc]
        rw [next] at fails
        exact .cut front _ rfl tokens start fails closes
  · obtain ⟨fault, reply⟩ := refuses_between .leftParen .rightParen (commaList trailing item)
      cursor opens
    rw [callArguments, reply] at member
    cases member

theorem Muted.ends (muted : Muted item) (closing : Token) (cursor : Cursor) (fault : Fault)
    (failed : (item cursor).outcome = .error fault)
    (_ : cursor.rest.head? = some .comma ∨ cursor.rest.head? = some closing) :
    ∀ told ∈ (item cursor).faults, told.Plain :=
  muted cursor fault failed

theorem honest_argumentList {follow : Option Token → Prop} (recovery : Recovery)
    (honest : ∀ recovery, Honest recovery (fun _ => True) item) (takes : Takes 0 item)
    (muted : Muted item)
    (attributes : ∀ list cursor fault, trailing = .rejected list →
      (item cursor).outcome = .error fault →
        list = .rule ∧ ∃ fault, (ruleAttribute cursor).outcome = .error fault)
    (strict : ∀ list, trailing = .rejected list → list = .rule) :
    Honest recovery follow (argumentList recovery trailing item) := by
  have call (recovery : Recovery) :
      Honest recovery follow (callArguments (commaList trailing item)) := by
    refine .between _ _ (honest_commaList .rightParen (honest recovery) takes
      (muted.ends .rightParen) ?_)
    intro list rejected
    rw [strict list rejected]
    rfl
  cases recovery with
  | off => exact call .off
  | on =>
    exact (call .on).recoverParens fun cursor _ _ =>
      fair_callArguments (honest .on) takes muted attributes cursor

end

/-! ## Values -/

section

variable {recovery : Recovery} {follow : Option Token → Prop}

theorem honest_identifierName : Honest recovery follow identifierName :=
  (honest_accept _ _).within _

theorem silent_identifierName : Silent identifierName :=
  (silent_accept _ _).within _

theorem honest_keyword (name : String) : Honest recovery follow (keyword name) :=
  honest_accept _ _

theorem honest_stringLiteral : Honest recovery follow stringLiteral :=
  ((honest_accept _ _).mapAt _).within _

theorem silent_stringLiteral : Silent stringLiteral :=
  ((silent_accept _ _).mapAt _).within _

theorem honest_numberLiteral : Honest recovery follow numberLiteral :=
  ((honest_accept _ _).mapAt _).within _

theorem honest_booleanLiteral : Honest recovery follow booleanLiteral :=
  (honest_accept _ _).mapAt _

theorem honest_identifier : Honest recovery follow identifier :=
  honest_identifierName.mapAt _

theorem honest_phrase : Honest recovery follow phrase := by
  refine honest_choice _ ?_
  simp only [List.mem_cons, List.not_mem_nil, or_false, forall_eq_or_imp, forall_eq]
  exact ⟨honest_stringLiteral.map _, honest_identifier.map _⟩

theorem honest_element : Honest recovery follow element := by
  refine honest_choice _ ?_
  simp only [List.mem_cons, List.not_mem_nil, or_false, forall_eq_or_imp, forall_eq]
  exact ⟨honest_stringLiteral.map _, honest_numberLiteral.map _, honest_booleanLiteral.map _,
    honest_identifier.map _⟩

/-- A bracketed list blames commas in front of its bracket. -/
theorem honest_bracketed {α : Type} {item : Parser α}
    (honest : Honest recovery (fun _ => True) item) (takes : Takes 1 item) (muted : Muted item) :
    Honest recovery follow
      ((commaList (.rejected .array) item).between .leftBracket .rightBracket) := by
  refine .between _ _ (honest_commaList .rightBracket honest (takes.weaken (Nat.zero_le 1))
    (muted.ends .rightBracket) ?_)
  rintro list ⟨⟩
  rfl

theorem honest_arrayLiteral : Honest recovery follow arrayLiteral :=
  ((honest_bracketed honest_element takes_element (muted_choice _)).mapAt _).within _

theorem honest_arrayOrName : Honest recovery follow arrayOrName :=
  (honest_arrayLiteral.map _).orElse (honest_identifier.map _)

theorem honest_patterns : Honest recovery follow patterns :=
  honest_bracketed honest_phrase takes_phrase (muted_choice _)

/-- What a name is bound to. -/
theorem honest_binding {α : Type} {parser : Parser α} (honest : Honest recovery follow parser) :
    Honest recovery follow ((identifierName.seqLeft (exactly .equals)).seq parser) :=
  (honest_identifierName.seqLeft takes_identifierName (honest_exactly .equals)).seq
    (takes_identifierName.seqLeft (takes_exactly .equals)) honest

theorem honest_globArgument : Honest recovery follow globArgument :=
  (honest_patterns.map _).orElse ((honest_binding honest_patterns).map _)

theorem honest_glob : Honest recovery follow glob := by
  have comma : RefusesToken globArgument .comma := .orElse (by simp) (by simp)
  have arguments : Honest recovery follow (callArguments (commaList .allowed globArgument)) := by
    refine .between _ _ (honest_commaList .rightParen honest_globArgument
      (takes_globArgument.weaken (Nat.zero_le 1)) ?_ (by simp))
    -- A pattern list that fails can have blamed a comma, but not at these tokens.
    rintro cursor fault _ (found | found) told member
    · obtain ⟨_, reply⟩ := comma cursor found
      rw [reply] at member
      cases member
    · obtain ⟨_, reply⟩ := globArgument_closed cursor found
      rw [reply] at member
      cases member
  exact (((honest_exactly .glob).seqRight (takes_exactly .glob) arguments).mapAt _).within _

end

section

variable {recovery : Recovery} {follow : Option Token → Prop} {value : Parser (Value Nat)}

theorem honest_entry (honest : Honest recovery follow value) :
    Honest recovery follow (entry value) :=
  ((honest_stringLiteral.seqLeft takes_stringLiteral (honest_exactly .colon)).seq
    (takes_stringLiteral.seqLeft (takes_exactly .colon)) honest).map _

theorem muted_entry (muted : Muted value) : Muted (entry value) :=
  (Muted.seq (silent_stringLiteral.seqLeft (silent_exactly .colon)) muted).mapSpan _

theorem honest_dict (honest : Honest recovery (fun _ => True) value) (takes : Takes 0 value)
    (muted : Muted value) : Honest recovery follow (dict value) := by
  have list : Honest recovery (· = some .rightBrace) (commaList .allowed (entry value)) :=
    honest_commaList .rightBrace (honest_entry honest)
    ((takes_entry takes).weaken (Nat.zero_le 1)) ((muted_entry muted).ends .rightBrace) (by simp)
  exact ((list.between _ _).mapAt _).within _

theorem honest_noMatchError : Honest recovery follow noMatchError := by
  have comma := takes_exactly .comma
  have word := comma.seqRight (takes_keyword "no_match_error")
  have name : Honest recovery (fun _ => True)
      (((exactly .comma).seqRight (keyword "no_match_error")).seqRight (exactly .equals)) :=
    ((honest_exactly .comma).seqRight comma (honest_keyword "no_match_error")).seqRight word
      (honest_exactly .equals)
  exact name.seqRight (word.seqRight (takes_exactly .equals)) honest_phrase

theorem honest_select (honest : Honest recovery (fun _ => True) value) (takes : Takes 0 value)
    (muted : Muted value) : Honest recovery follow (select value) := by
  have choices : Honest recovery (fun _ => True) (constraint value) :=
    ((honest_dict honest takes muted).map _).orElse (honest_identifier.map _)
  have inside : Honest recovery (· = some .rightParen)
      ((constraint value).seq (optional noMatchError)) :=
    choices.seq (takes_constraint takes) honest_noMatchError.optional
  exact (((honest_keyword "select").seqRight (takes_keyword "select")
    (inside.between .leftParen .rightParen)).mapAt _).within _

theorem honest_valueOver (honest : Honest recovery (fun _ => True) value) (takes : Takes 0 value)
    (muted : Muted value) : Honest recovery follow (valueOver value) := by
  refine (honest_choice _ ?_).within _
  simp only [List.mem_cons, List.not_mem_nil, or_false, forall_eq_or_imp, forall_eq]
  exact ⟨honest_stringLiteral.map _, honest_numberLiteral.map _, honest_booleanLiteral.map _,
    honest_arrayLiteral.map _, honest_glob.map _, (honest_dict honest takes muted).map _,
    (honest_select honest takes muted).map _, honest_identifier.map _⟩

theorem muted_valueWithin (depth : Nat) : Muted (valueWithin depth) := by
  cases depth with
  | zero =>
    rintro cursor fault _ told ⟨⟩
  | succ depth => exact (muted_choice _).within _

theorem honest_valueWithin (depth : Nat) : Honest recovery follow (valueWithin depth) := by
  induction depth generalizing follow with
  | zero =>
    constructor
    · rintro cursor success ⟨⟩
    · rintro cursor fault ⟨⟩
      exact Fault.plain_unexpected _ _ _
  | succ depth ih =>
    exact honest_valueOver ih ((takes_valueWithin depth).weaken (Nat.zero_le 1))
      (muted_valueWithin depth)

theorem honest_value : Honest recovery follow Parser.value :=
  have within (depth : Nat) : Honest recovery follow (valueWithin depth) := honest_valueWithin depth
  ⟨fun cursor => (within (cursor.rest.length + 1)).told cursor,
    fun cursor => (within (cursor.rest.length + 1)).hints cursor⟩

theorem muted_value : Muted Parser.value :=
  fun cursor => muted_valueWithin (cursor.rest.length + 1) cursor

end

/-! ## Statements -/

section

variable {recovery : Recovery} {follow : Option Token → Prop}

theorem honest_loadedSymbol : Honest recovery follow loadedSymbol :=
  (honest_stringLiteral.map _).orElse ((honest_binding honest_stringLiteral).mapAt _)

theorem silent_loadedSymbol : Silent loadedSymbol := by
  have name := silent_identifierName.seqLeft (silent_exactly .equals)
  exact (silent_stringLiteral.map _).orElse ((name.seq silent_stringLiteral).mapAt _)

theorem honest_load : Honest recovery follow load := by
  have label : Honest recovery (fun _ => True) (stringLiteral.seqLeft (exactly .comma)) :=
    honest_stringLiteral.seqLeft takes_stringLiteral (honest_exactly .comma)
  have taken := takes_stringLiteral.seqLeft (takes_exactly .comma)
  have symbols : Honest recovery (· = some .rightParen)
      (commaList (.rejected .load) loadedSymbol) := by
    refine honest_commaList .rightParen honest_loadedSymbol
      (takes_loadedSymbol.weaken (Nat.zero_le 1)) (silent_loadedSymbol.muted.ends .rightParen) ?_
    rintro list ⟨⟩
    rfl
  exact (((honest_exactly .load).seqRight (takes_exactly .load)
    ((label.seq taken symbols).between .leftParen .rightParen)).mapAt _).within _

theorem honest_argument : Honest recovery follow argument :=
  (honest_binding honest_value).map _

theorem muted_argument : Muted argument :=
  (Muted.seq (silent_identifierName.seqLeft (silent_exactly .equals)) muted_value).mapSpan _

theorem honest_rule (recovery : Recovery) : Honest recovery follow (rule recovery) := by
  have attributes : Honest recovery follow
      (argumentList recovery (.rejected .rule) ruleAttribute) := by
    refine honest_argumentList recovery (fun _ => honest_argument.mapAt _)
      ((takes_argument.mapAt _).weaken (Nat.zero_le 1)) (muted_argument.mapSpan _) ?_ ?_
    · rintro list cursor fault ⟨⟩ failed
      exact ⟨rfl, fault, failed⟩
    · rintro list ⟨⟩
      rfl
  have name : Honest recovery (fun _ => True) ruleName := (honest_accept _ _).within _
  exact (name.seq takes_ruleName attributes).mapAt _

theorem honest_packageArguments (recovery : Recovery) :
    Honest recovery follow (argumentList recovery .allowed argument) :=
  honest_argumentList recovery (fun _ => honest_argument) (takes_argument.weaken (Nat.zero_le 1))
    muted_argument (by simp) (by simp)

theorem honest_exportsFiles : Honest recovery follow exportsFiles := by
  have comma := takes_exactly .comma
  have word := comma.seqRight takes_identifierName
  have name : Honest recovery (fun _ => True)
      (((exactly .comma).seqRight identifierName).seqLeft (exactly .equals)) :=
    ((honest_exactly .comma).seqRight comma honest_identifierName).seqLeft word
      (honest_exactly .equals)
  have further : Honest recovery (fun _ => True) visibility :=
    name.seqRight (word.seqLeft (takes_exactly .equals)) honest_arrayOrName
  have files : Honest recovery (fun _ => True) (arrayOrName.seq (optional visibility)) :=
    honest_arrayOrName.seq takes_arrayOrName further.optional
  have inside : Honest recovery (· = some .rightParen)
      ((arrayOrName.seq (optional visibility)).seqLeft (optional (exactly .comma))) :=
    files.seqLeft (takes_arrayOrName.seq takes_visibility.optional) (honest_exactly .comma).optional
  exact ((honest_keyword "exports_files").seqRight (takes_keyword "exports_files")
    (inside.between .leftParen .rightParen)).mapAt _

theorem honest_statement (recovery : Recovery) : Honest recovery follow (statement recovery) := by
  have package (name : String) : Honest recovery follow
      ((keyword name).seqRight (argumentList recovery .allowed argument)) :=
    (honest_keyword name).seqRight (takes_keyword name) (honest_packageArguments recovery)
  refine honest_choice _ ?_
  simp only [List.mem_cons, List.not_mem_nil, or_false, forall_eq_or_imp, forall_eq]
  exact ⟨honest_load.map _, ((package "package").mapAt _).map _,
    ((package "package_group").mapAt _).map _, honest_exportsFiles.map _,
    (honest_rule recovery).map _, (honest_argument.mapAt _).map _⟩

end

/-! ## Documents -/

section

variable {recovery : Recovery} {follow : Option Token → Prop}

theorem honest_skipped : Honest recovery follow skipped := by
  have run : Honest recovery follow (many (butNot statementStart)) :=
    (honest_butNot _).many (takes_butNot _) (silent_butNot _).muted
  have tokens : Honest recovery follow (anyToken.seq (many (butNot statementStart))) :=
    (honest_accept [] some).seq (takes_accept [] some) run
  unfold skipped step
  exact (tokens.map _).mapSpan _

theorem muted_skipped : Muted skipped :=
  ((Muted.seq (silent_accept [] some) muted_many).mapSpan _).mapSpan _

theorem honest_documentStep : Honest recovery follow (documentStep recovery) := by
  have read : Honest recovery follow (step (statement recovery)) :=
    (honest_statement recovery).mapSpan _
  cases recovery with
  | on => exact read.recoverWith ((muted_choice _).mapSpan _) honest_skipped
  | off => exact read

theorem muted_documentStep : Muted (documentStep recovery) := by
  have plain : Honest recovery (fun _ => True) (step (statement recovery)) :=
    (honest_statement recovery).mapSpan _
  cases recovery with
  | on => exact .recoverWith plain.hints ((muted_choice _).mapSpan _) muted_skipped
  | off => exact (muted_choice _).mapSpan _

theorem honest_steps : Honest recovery follow (many (documentStep recovery)) :=
  honest_documentStep.many (takes_documentStep recovery) muted_documentStep

/-- Whether it was read to its end or not, what a document tells of commas is so. -/
theorem fair_document (recovery : Recovery) (cursor : Cursor) :
    ∀ fault ∈ (document recovery cursor).faults, fault.Fair recovery cursor := by
  obtain ⟨success, read⟩ := manyFrom_ok (documentStep recovery) (cursor.rest.length + 1) none
    cursor
  have steps : (many (documentStep recovery) cursor).outcome = .ok success := read
  rw [document, Parser.seqLeft, Parser.map, faults_mapSpan, faults_seq cursor success steps,
    silent_finish success.next, List.append_nil]
  have honest : Honest recovery (fun _ => True) (many (documentStep recovery)) := honest_steps
  exact honest.told cursor success steps trivial

theorem hintsPlainly_document : HintsPlainly (document recovery) := by
  have steps : Honest recovery (fun _ => True) (many (documentStep recovery)) := honest_steps
  have ends : Honest recovery (fun _ => True) finish := honest_finish
  exact (steps.hints.seq ends.hints).mapSpan _

end

end BuildLang.Parser

namespace BuildLang

theorem readSteps_fair (recovery : Recovery) (tokens : List Token) :
    ∀ fault ∈ (readSteps recovery tokens).2, fault.Fair recovery (.start tokens) := by
  have fair := Parser.fair_document recovery (.start tokens)
  unfold readSteps
  dsimp only
  split
  · exact fair
  · rename_i stop failed
    intro fault member
    rcases List.mem_append.mp member with early | last
    · exact fair fault early
    · obtain rfl := List.mem_singleton.mp last
      exact (Parser.hintsPlainly_document.stops _ fault failed).fair

end BuildLang
