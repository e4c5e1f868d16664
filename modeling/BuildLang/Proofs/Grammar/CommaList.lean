import BuildLang.Proofs.Grammar.Written

/-!
# Reading comma lists

A comma list reads items for as long as there are any, and the comma behind the
last one, if there is one.  What it reads without a fault is a list with no comma
that it does not admit.
-/

set_option autoImplicit false

namespace BuildLang.Parser

variable {α : Type}

/-- Further items, each behind a comma. -/
inductive ReadsRest (item : Parser α) :
    Cursor → List SurplusComma → List α → Cursor → Prop where
  | done {cursor : Cursor} : ReadsRest item cursor [] [] cursor
  | more {cursor start middle next : Cursor} {front back : List SurplusComma} {value : α}
      {others : List α} (comma : Spans cursor [.comma] start)
      (first : Reads item start front value middle)
      (rest : ReadsRest item middle back others next) :
      ReadsRest item cursor (front ++ back) (value :: others) next

/-- Where a list of items ends: no comma follows, or one with no item behind it. -/
def ItemsEnd (item : Parser α) (cursor : Cursor) : Prop :=
  cursor.rest.head? ≠ some .comma ∨ ∃ start, Spans cursor [.comma] start ∧ Refuses item start

theorem commaItems_end (item : Parser α) (fuel : Nat) (hint : Option Fault) (cursor : Cursor)
    (ends : ItemsEnd item cursor) :
    Reads (commaItems item fuel hint) cursor [] [] cursor := by
  cases fuel with
  | zero => exact ⟨[], hint, rfl, rfl⟩
  | succ fuel =>
    rcases ends with noComma | ⟨start, comma, refuses⟩
    · unfold Reads commaItems
      split
      · rename_i rest found
        simp [found] at noComma
      · exact ⟨[], _, rfl, rfl⟩
    · obtain ⟨rest, found, rfl⟩ := (spans_singleton _ _ _).mp comma
      obtain ⟨fault, reply⟩ := refuses
      exact ⟨[], _, by simp only [commaItems, found, reply]; rfl, rfl⟩

theorem commaItems_more (item : Parser α) (fuel : Nat) (hint : Option Fault)
    (cursor start middle next : Cursor) (front back : List SurplusComma) (value : α)
    (others : List α) (comma : Spans cursor [.comma] start)
    (first : Reads item start front value middle)
    (rest : ∀ hint, Reads (commaItems item fuel hint) middle back others next) :
    Reads (commaItems item (fuel + 1) hint) cursor (front ++ back) (value :: others) next := by
  obtain ⟨tail, found, rfl⟩ := (spans_singleton _ _ _).mp comma
  obtain ⟨frontFaults, frontHint, frontReply, frontMarks⟩ := first
  obtain ⟨backFaults, backHint, backReply, backMarks⟩ := rest (Fault.latest hint frontHint)
  refine ⟨frontFaults ++ backFaults, backHint, ?_, ?_⟩
  · simp only [commaItems, found, frontReply, backReply, Reply.after, Reply.mapValue]
  · rw [List.map_append, List.map_append, frontMarks, backMarks]

theorem commaItems_complete (item : Parser α) (fuel : Nat) (hint : Option Fault)
    (cursor next : Cursor) (commas : List SurplusComma) (values : List α)
    (rest : ReadsRest item cursor commas values next) (ends : ItemsEnd item next)
    (enough : values.length ≤ fuel) :
    Reads (commaItems item fuel hint) cursor commas values next := by
  induction rest generalizing fuel hint with
  | done => exact commaItems_end item fuel hint _ ends
  | @more cursor start middle next front back value others comma first _ ih =>
    cases fuel with
    | zero => simp at enough
    | succ fuel =>
      have smaller : others.length ≤ fuel := by simpa using enough
      exact commaItems_more item fuel hint cursor start middle next front back value others
        comma first (fun hint => ih fuel hint ends smaller)

theorem commaItems_sound (item : Parser α) (fuel : Nat) (hint : Option Fault)
    (cursor next : Cursor) (values : List α)
    (reads : Reads (commaItems item fuel hint) cursor [] values next) :
    ReadsRest item cursor [] values next := by
  induction fuel generalizing hint cursor values with
  | zero =>
    obtain ⟨last, reply⟩ := (reads_clean _ _ _ _).mp reads
    cases reply
    exact .done
  | succ fuel ih =>
    obtain ⟨last, reply⟩ := (reads_clean _ _ _ _).mp reads
    unfold commaItems at reply
    split at reply
    · rename_i rest found
      cases first : item ⟨cursor.index + 1, rest⟩ with
      | mk faults outcome =>
        cases outcome with
        | error fault =>
          -- The comma in front of a failed item is given back.
          simp only [first] at reply
          cases reply
          exact .done
        | ok success =>
          cases later : commaItems item fuel (Fault.latest hint success.hint) success.next with
          | mk laterFaults laterOutcome =>
            cases laterOutcome with
            | error fault => simp [first, later, Reply.after, Reply.mapValue] at reply
            | ok ended =>
              simp only [first, later, Reply.after, Reply.mapValue, Reply.mk.injEq,
                List.append_eq_nil_iff] at reply
              obtain ⟨⟨rfl, rfl⟩, same⟩ := reply
              cases same
              have comma := (spans_singleton _ _ _).mpr ⟨rest, found, rfl⟩
              have value := (reads_clean _ _ _ _).mpr ⟨_, first⟩
              have rest := ih _ _ _ ((reads_clean _ _ _ _).mpr ⟨_, later⟩)
              simpa using ReadsRest.more comma value rest
    · cases reply
      exact .done

theorem separated_empty (item : Parser α) (cursor : Cursor) (refuses : Refuses item cursor) :
    Reads (separated item) cursor [] [] cursor := by
  obtain ⟨fault, reply⟩ := refuses
  exact ⟨[], some fault, by simp [separated, reply], rfl⟩

theorem separated_complete (item : Parser α) (cursor middle next : Cursor)
    (front back : List SurplusComma) (value : α) (others : List α)
    (first : Reads item cursor front value middle)
    (rest : ReadsRest item middle back others next) (ends : ItemsEnd item next)
    (enough : others.length ≤ cursor.rest.length) :
    Reads (separated item) cursor (front ++ back) (value :: others) next := by
  obtain ⟨frontFaults, frontHint, frontReply, frontMarks⟩ := first
  obtain ⟨backFaults, backHint, backReply, backMarks⟩ :=
    commaItems_complete item cursor.rest.length frontHint middle next back others rest ends enough
  refine ⟨frontFaults ++ backFaults, backHint, ?_, ?_⟩
  · simp only [separated, frontReply, backReply, Reply.after, Reply.mapValue]
  · rw [List.map_append, List.map_append, frontMarks, backMarks]

theorem separated_sound (item : Parser α) (cursor next : Cursor) (values : List α)
    (reads : Reads (separated item) cursor [] values next) :
    (values = [] ∧ next = cursor) ∨
      ∃ value others middle, values = value :: others ∧ Reads item cursor [] value middle ∧
        ReadsRest item middle [] others next := by
  obtain ⟨hint, reply⟩ := (reads_clean _ _ _ _).mp reads
  unfold separated at reply
  cases first : item cursor with
  | mk faults outcome =>
    cases outcome with
    | error fault =>
      simp only [first] at reply
      cases reply
      exact .inl ⟨rfl, rfl⟩
    | ok success =>
      cases later : commaItems item cursor.rest.length success.hint success.next with
      | mk laterFaults laterOutcome =>
        cases laterOutcome with
        | error fault => simp [first, later, Reply.after, Reply.mapValue] at reply
        | ok ended =>
          simp only [first, later, Reply.after, Reply.mapValue, Reply.mk.injEq,
            List.append_eq_nil_iff] at reply
          obtain ⟨⟨rfl, rfl⟩, same⟩ := reply
          cases same
          have rest := commaItems_sound _ _ _ _ _ _ ((reads_clean _ _ _ _).mpr ⟨_, later⟩)
          exact .inr ⟨_, _, _, rfl, (reads_clean _ _ _ _).mpr ⟨_, first⟩, rest⟩

/-! ## The comma behind the last item -/

theorem commaList_without (trailing : TrailingComma) (item : Parser α) (cursor next : Cursor)
    (commas : List SurplusComma) (values : List α)
    (reads : Reads (separated item) cursor commas values next)
    (noComma : next.rest.head? ≠ some .comma) :
    Reads (commaList trailing item) cursor commas values next := by
  have none : Reads (Parser.optional (mapAt (fun index _ => index) (exactly .comma))) next []
      none next :=
    reads_optional_none _ next (refuses_mapAt _ _ next (refuses_exactly .comma next noComma))
  have both : Reads ((separated item).seq
      (Parser.optional (mapAt (fun index _ => index) (exactly .comma)))) cursor commas
      (values, Option.none) next :=
    (reads_seq _ _ _ _ _ _).mpr ⟨next, commas, [], reads, none, by simp⟩
  obtain ⟨faults, hint, reply, marks⟩ := both
  exact ⟨faults, hint, by simp [commaList, reply], marks⟩

theorem commaList_with (trailing : TrailingComma) (item : Parser α) (cursor stop next : Cursor)
    (commas : List SurplusComma) (values : List α)
    (reads : Reads (separated item) cursor commas values stop) (some : values ≠ [])
    (comma : Spans stop [.comma] next) :
    Reads (commaList trailing item) cursor
      (commas ++ Written.trailingSurplus trailing stop.index) values next := by
  have found : Reads (Parser.optional (mapAt (fun index _ => index) (exactly .comma))) stop []
      (Option.some stop.index) next :=
    reads_optional_some _ stop next [] stop.index ((reads_mapAt _ _ _ _ _ _).mpr
      ⟨(), (reads_exactly _ _ _ _ _).mpr ⟨rfl, comma⟩, rfl⟩)
  have both : Reads ((separated item).seq
      (Parser.optional (mapAt (fun index _ => index) (exactly .comma)))) cursor commas
      (values, Option.some stop.index) next :=
    (reads_seq _ _ _ _ _ _).mpr ⟨stop, commas, [], reads, found, by simp⟩
  have nonempty : values.isEmpty = false := by simpa using some
  obtain ⟨faults, hint, reply, marks⟩ := both
  cases trailing with
  | allowed =>
    refine ⟨faults, hint, ?_, ?_⟩
    · simp [commaList, reply, nonempty, commaFault]
    · simpa [Written.trailingSurplus] using marks
  | rejected list =>
    refine ⟨faults ++ [⟨next.index, stop.index, .trailingComma list, [], Option.none, .unknown⟩],
      hint, ?_, ?_⟩
    · simp [commaList, reply, nonempty, commaFault]
    · rw [List.map_append, List.map_append, marks]
      rfl

theorem commaList_sound (trailing : TrailingComma) (item : Parser α) (cursor next : Cursor)
    (values : List α) (reads : Reads (commaList trailing item) cursor [] values next) :
    Reads (separated item) cursor [] values next ∨
      trailing = .allowed ∧ values ≠ [] ∧ ∃ stop, Reads (separated item) cursor [] values stop ∧
        Spans stop [.comma] next := by
  obtain ⟨hint, reply⟩ := (reads_clean _ _ _ _).mp reads
  unfold commaList at reply
  cases both : (separated item).seq
      (Parser.optional (mapAt (fun index _ => index) (exactly .comma))) cursor with
  | mk faults outcome =>
    cases outcome with
    | error fault => simp [both] at reply
    | ok success =>
      obtain ⟨⟨items, comma⟩, successHint, stop⟩ := success
      simp only [both, Reply.mk.injEq, List.append_eq_nil_iff] at reply
      obtain ⟨⟨rfl, noFault⟩, same⟩ := reply
      cases same
      have pair := (reads_clean _ _ _ _).mpr ⟨_, both⟩
      obtain ⟨middle, front, back, list, tail, split⟩ := (reads_seq _ _ _ _ _ _).mp pair
      obtain ⟨rfl, rfl⟩ := List.append_eq_nil_iff.mp split.symm
      rcases optional_reads _ _ _ _ _ tail with ⟨index, found, token⟩ | ⟨absent, _, rfl⟩
      · obtain ⟨_, exact, rfl⟩ := (reads_mapAt _ _ _ _ _ _).mp token
        obtain ⟨_, spans⟩ := (reads_exactly _ _ _ _ _).mp exact
        dsimp only at found list
        subst found
        cases values with
        | nil => simp [commaFault] at noFault
        | cons value others =>
          cases trailing with
          | allowed => exact .inr ⟨rfl, by simp, middle, list, spans⟩
          | rejected strict => simp [commaFault] at noFault
      · exact .inl list

/-! ## Written lists -/

/-- A list goes on with a comma or ends at its closing token. -/
def InList (closing : Token) (found : Option Token) : Prop :=
  found = some .comma ∨ found = some closing

theorem readsRest_written (item : Parser α) (closing : Token) (others : List (Written α))
    (each : ∀ written ∈ others, ReadsWritten item written (InList closing))
    (cursor next : Cursor)
    (spans : Spans cursor (others.flatMap fun written => .comma :: written.tokens) next)
    (follow : InList closing next.rest.head?) :
    ReadsRest item cursor (Written.itemSurplus (cursor.index + 1) others)
      (Written.itemTrees (cursor.index + 1) others) next := by
  induction others generalizing cursor with
  | nil =>
    obtain rfl := (spans_nil cursor next).mp spans
    exact .done
  | cons written others ih =>
    rw [List.flatMap_cons, List.cons_append, spans_cons] at spans
    obtain ⟨start, comma, spans⟩ := spans
    obtain ⟨middle, first, later⟩ := (spans_append _ _ _ _).mp spans
    have startIndex : start.index = cursor.index + 1 := comma.2
    have middleIndex : middle.index = start.index + written.tokens.length := first.2
    have middleFollow : InList closing middle.rest.head? := by
      cases others with
      | nil =>
        obtain rfl := (spans_nil _ _).mp later
        exact follow
      | cons other others =>
        rw [later.1]
        exact .inl rfl
    have read := each written (by simp) start middle first middleFollow
    have rest := ih (fun other member => each other (by simp [member])) middle later
    rw [startIndex] at read
    rw [middleIndex, startIndex] at rest
    exact .more comma read rest

theorem itemTrees_length (start : Nat) (items : List (Written α)) :
    (Written.itemTrees start items).length = items.length := by
  induction items generalizing start with
  | nil => rfl
  | cons item others ih => simp [Written.itemTrees, ih]

theorem length_le_flatMap (others : List (Written α)) :
    others.length ≤ (others.flatMap fun written => Token.comma :: written.tokens).length := by
  induction others with
  | nil => simp
  | cons written others ih =>
    simp only [List.flatMap_cons, List.length_append, List.length_cons]
    omega

theorem separated_written (item : Parser α) (closing : Token) (first : Written α)
    (others : List (Written α))
    (each : ∀ written ∈ first :: others, ReadsWritten item written (InList closing))
    (cursor next : Cursor)
    (spans : Spans cursor (Written.itemTokens (first :: others)) next)
    (follow : InList closing next.rest.head?) (ends : ItemsEnd item next) :
    Reads (separated item) cursor (Written.itemSurplus cursor.index (first :: others))
      (Written.itemTrees cursor.index (first :: others)) next := by
  obtain ⟨middle, front, back⟩ := (spans_append _ _ _ _).mp spans
  have middleIndex : middle.index = cursor.index + first.tokens.length := front.2
  have middleFollow : InList closing middle.rest.head? := by
    cases others with
    | nil =>
      obtain rfl := (spans_nil _ _).mp back
      exact follow
    | cons other others =>
      rw [back.1]
      exact .inl rfl
  have read := each first (by simp) cursor middle front middleFollow
  have rest := readsRest_written item closing others
    (fun written member => each written (by simp [member])) middle next back follow
  rw [middleIndex] at rest
  refine separated_complete item cursor middle next _ _ _ _ read rest ends ?_
  have counted := length_le_flatMap others
  rw [itemTrees_length, spans.1, Written.itemTokens, List.length_append, List.length_append]
  omega

theorem readsWritten_list (trailing : TrailingComma) (item : Parser α) (closing : Token)
    (items : List (Written α)) (comma : Bool) (notComma : closing ≠ .comma)
    (each : ∀ written ∈ items, ReadsWritten item written (InList closing))
    (refuses : ∀ cursor : Cursor, cursor.rest.head? = some closing → Refuses item cursor) :
    ReadsWritten (commaList trailing item) (Written.list trailing items comma)
      (· = some closing) := by
  intro cursor next spans follow
  have noComma : next.rest.head? ≠ some .comma := by
    rw [follow]
    simpa using notComma
  obtain ⟨stop, front, back⟩ := (spans_append _ _ _ _).mp spans
  cases items with
  | nil =>
    obtain rfl := (spans_nil _ _).mp front
    obtain rfl : next = stop := by simpa [Written.trailingComma, spans_nil] using back
    simpa [Written.list, Written.itemSurplus, Written.itemTrees] using
      commaList_without trailing item next next [] []
        (separated_empty item next (refuses next follow)) noComma
  | cons first others =>
    cases comma with
    | false =>
      obtain rfl : next = stop := by simpa [Written.trailingComma, spans_nil] using back
      have reads := separated_written item closing first others each cursor next front
        (.inr follow) (.inl noComma)
      simpa [Written.list] using commaList_without trailing item cursor next _ _ reads noComma
    | true =>
      have trailed : Spans stop [.comma] next := by simpa [Written.trailingComma] using back
      have stopFollow : InList closing stop.rest.head? := by
        rw [trailed.1]
        exact .inl rfl
      have reads := separated_written item closing first others each cursor stop front stopFollow
        (.inr ⟨next, trailed, refuses next follow⟩)
      have list := commaList_with trailing item cursor stop next _ _ reads
        (by simp [Written.itemTrees]) trailed
      simpa [Written.list, front.2] using list

theorem readsWritten_commaList {σ : Type} (trailing : TrailingComma) (item : Parser α)
    (closing : Token) (write : σ → Written α) (form : ListForm σ) (notComma : closing ≠ .comma)
    (each : ∀ source ∈ form.items, ReadsWritten item (write source) (InList closing))
    (refuses : ∀ cursor : Cursor, cursor.rest.head? = some closing → Refuses item cursor) :
    ReadsWritten (commaList trailing item) (form.written trailing write) (· = some closing) := by
  refine readsWritten_list trailing item closing _ form.comma notComma ?_ refuses
  intro written member
  obtain ⟨source, found, rfl⟩ := List.mem_map.mp member
  exact each source found

theorem readsRest_only {σ : Type} (item : Parser α) (write : σ → Written α)
    (only : ReadsOnly item write) (cursor next : Cursor) (values : List α)
    (reads : ReadsRest item cursor [] values next) :
    ∃ forms : List σ,
      Spans cursor ((forms.map write).flatMap fun written => .comma :: written.tokens) next ∧
      Written.itemTrees (cursor.index + 1) (forms.map write) = values ∧
      Written.itemSurplus (cursor.index + 1) (forms.map write) = [] := by
  generalize clean : ([] : List SurplusComma) = commas at reads
  induction reads with
  | @done cursor => exact ⟨[], (spans_nil _ _).mpr rfl, rfl, rfl⟩
  | @more cursor start middle next front back value others comma first _ ih =>
    obtain ⟨rfl, rfl⟩ := List.append_eq_nil_iff.mp clean.symm
    obtain ⟨form, spans, tree, surplus⟩ := only start value middle first
    obtain ⟨later, laterSpans, trees, surpluses⟩ := ih rfl
    have startIndex : start.index = cursor.index + 1 := comma.2
    have middleIndex : middle.index = start.index + (write form).tokens.length := spans.2
    rw [startIndex] at tree surplus
    rw [middleIndex, startIndex] at trees surpluses
    refine ⟨form :: later, ?_, ?_, ?_⟩
    · rw [List.map_cons, List.flatMap_cons, List.cons_append, spans_cons]
      exact ⟨start, comma, (spans_append _ _ _ _).mpr ⟨middle, spans, laterSpans⟩⟩
    · rw [List.map_cons, Written.itemTrees, tree, trees]
    · rw [List.map_cons, Written.itemSurplus, surplus, surpluses, List.append_nil]

theorem separated_only {σ : Type} (item : Parser α) (write : σ → Written α)
    (only : ReadsOnly item write) (cursor next : Cursor) (values : List α)
    (reads : Reads (separated item) cursor [] values next) :
    ∃ forms : List σ, Spans cursor (Written.itemTokens (forms.map write)) next ∧
      Written.itemTrees cursor.index (forms.map write) = values ∧
      Written.itemSurplus cursor.index (forms.map write) = [] := by
  rcases separated_sound item cursor next values reads with ⟨rfl, rfl⟩ | found
  · exact ⟨[], (spans_nil _ _).mpr rfl, rfl, rfl⟩
  · obtain ⟨value, others, middle, rfl, first, rest⟩ := found
    obtain ⟨form, spans, tree, surplus⟩ := only cursor value middle first
    obtain ⟨later, laterSpans, trees, surpluses⟩ :=
      readsRest_only item write only middle next others rest
    have middleIndex : middle.index = cursor.index + (write form).tokens.length := spans.2
    rw [middleIndex] at trees surpluses
    refine ⟨form :: later, ?_, ?_, ?_⟩
    · exact (spans_append _ _ _ _).mpr ⟨middle, spans, laterSpans⟩
    · rw [List.map_cons, Written.itemTrees, tree, trees]
    · rw [List.map_cons, Written.itemSurplus, surplus, surpluses, List.append_nil]

theorem readsOnly_commaList {σ : Type} (trailing : TrailingComma) (item : Parser α)
    (write : σ → Written α) (only : ReadsOnly item write) :
    ReadsOnly (commaList trailing item) (ListForm.written trailing write) := by
  intro cursor values next reads
  rcases commaList_sound trailing item cursor next values reads with
    list | ⟨rfl, some, stop, list, comma⟩
  · obtain ⟨forms, spans, trees, surplus⟩ :=
      separated_only item write only cursor next values list
    refine ⟨⟨forms, false⟩, ?_, trees, ?_⟩
    · simpa [ListForm.written, Written.list, Written.trailingComma] using spans
    · simpa [ListForm.written, Written.list] using surplus
  · obtain ⟨forms, spans, trees, surplus⟩ :=
      separated_only item write only cursor stop values list
    have nonempty : (forms.map write).isEmpty = false := by
      cases forms with
      | nil => exact absurd trees.symm some
      | cons form others => rfl
    refine ⟨⟨forms, true⟩, ?_, trees, ?_⟩
    · refine (spans_append _ _ _ _).mpr ⟨stop, spans, ?_⟩
      simpa [Written.trailingComma, nonempty] using comma
    · simp [ListForm.written, Written.list, surplus, Written.trailingSurplus]

end BuildLang.Parser
