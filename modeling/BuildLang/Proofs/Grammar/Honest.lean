import BuildLang.Proofs.Grammar.Steps
import BuildLang.Proofs.Grammar.Surplus

/-!
# What is told of commas

A list blames a comma when no item can be read behind it, before anything has looked for
the token that closes the list.  A parser is honest if the blame is right whenever it yields
a value: by then the list has been closed.  Only where an argument list is skipped as a
whole, the blame stays although the list was never closed.
-/

set_option autoImplicit false

namespace BuildLang

/-! ## Blame -/

/-- The fault tells of anything but a trailing comma. -/
def Fault.Plain (fault : Fault) : Prop :=
  ∀ list, fault.reason ≠ .trailingComma list

/-- How the token with the given index, seen from the cursor, can come to be blamed as the
trailing comma of a list. -/
inductive Blamed (recovery : Recovery) (cursor : Cursor) (index : Nat) : StrictList → Prop where
  | trailing {list : StrictList} (front back : List Token)
      (rest : cursor.rest = front ++ .comma :: list.closing :: back)
      (place : index = cursor.index + front.length) : Blamed recovery cursor index list
  | cut (front back : List Token) (skips : recovery = .on)
      (rest : cursor.rest = front ++ .comma :: back) (place : index = cursor.index + front.length)
      (fails : ∃ fault, (Parser.ruleAttribute ⟨index + 1, back⟩).outcome = .error fault)
      (unclosed : back.head? ≠ some .rightParen) : Blamed recovery cursor index .rule

/-- If the fault blames a comma, that is so. -/
def Fault.Fair (recovery : Recovery) (cursor : Cursor) (fault : Fault) : Prop :=
  ∀ list, fault.reason = .trailingComma list → Blamed recovery cursor fault.start list

section

variable {recovery : Recovery} {cursor next : Cursor} {index : Nat} {list : StrictList}
  {fault : Fault}

theorem Blamed.behind {front : List Token} (spans : Spans cursor front next)
    (blamed : Blamed recovery next index list) : Blamed recovery cursor index list := by
  cases blamed with
  | trailing early back rest place =>
    refine .trailing (front ++ early) back ?_ ?_
    · rw [spans.1, rest, List.append_assoc]
    · rw [place, spans.2, List.length_append, Nat.add_assoc]
  | cut early back skips rest place fails unclosed =>
    refine .cut (front ++ early) back skips ?_ ?_ fails unclosed
    · rw [spans.1, rest, List.append_assoc]
    · rw [place, spans.2, List.length_append, Nat.add_assoc]

theorem Fault.Fair.behind {front : List Token} (spans : Spans cursor front next)
    (fair : fault.Fair recovery next) : fault.Fair recovery cursor :=
  fun list blames => (fair list blames).behind spans

theorem Fault.Plain.fair (plain : fault.Plain) : fault.Fair recovery cursor :=
  fun list blames => absurd blames (plain list)

end

namespace Fault

theorem plain_unexpected (index : Nat) (expected : List Expected) (found : Option Token) :
    (unexpected index expected found).Plain :=
  fun _ same => nomatch same

theorem Plain.merge {first second : Fault} (plain : first.Plain) (other : second.Plain) :
    (first.merge second).Plain := by
  intro list
  have left := plain list
  have right := other list
  unfold Fault.merge Reason.merge
  dsimp only
  split
  · simp
  · exact left

theorem Plain.furthest {first : Fault} {second : Option Fault} (plain : first.Plain)
    (other : ∀ fault ∈ second, fault.Plain) : (first.furthest second).Plain := by
  cases second with
  | none => exact plain
  | some second =>
    have right := other second rfl
    unfold Fault.furthest
    dsimp only
    split
    · exact plain
    · split
      · exact right
      · exact plain.merge right

theorem plain_latest {first second : Option Fault} (plain : ∀ fault ∈ first, fault.Plain)
    (other : ∀ fault ∈ second, fault.Plain) : ∀ fault ∈ latest first second, fault.Plain := by
  cases second with
  | none => exact plain
  | some second =>
    rintro fault ⟨⟩
    exact (other second rfl).furthest plain

end Fault

namespace Parser

variable {α β : Type}

/-- What the parser hints at or fails with blames no comma. -/
def HintsPlainly (parser : Parser α) : Prop :=
  ∀ cursor, ∀ fault ∈ (parser cursor).hint, fault.Plain

/-- Where the parser yields a value and is followed as it should be, it blames rightly. -/
structure Honest (recovery : Recovery) (follow : Option Token → Prop) (parser : Parser α) :
    Prop where
  told : ∀ cursor success, (parser cursor).outcome = .ok success →
    follow success.next.rest.head? → ∀ fault ∈ (parser cursor).faults, fault.Fair recovery cursor
  hints : HintsPlainly parser

/-- The parser gets past no fault. -/
def Silent (parser : Parser α) : Prop :=
  ∀ cursor, (parser cursor).faults = []

/-- Where the parser fails, it blames no comma. -/
def Muted (parser : Parser α) : Prop :=
  ∀ cursor fault, (parser cursor).outcome = .error fault →
    ∀ told ∈ (parser cursor).faults, told.Plain

section

variable {recovery : Recovery} {follow : Option Token → Prop} {parser : Parser α}
  {other : Parser β} {least : Nat}

theorem HintsPlainly.stops (plainly : HintsPlainly parser) (cursor : Cursor) (fault : Fault)
    (failed : (parser cursor).outcome = .error fault) : fault.Plain :=
  plainly cursor fault (by simp [Reply.hint, failed])

theorem HintsPlainly.hint (plainly : HintsPlainly parser) (cursor : Cursor)
    (success : Success α) (reply : (parser cursor).outcome = .ok success) :
    ∀ fault ∈ success.hint, fault.Plain := by
  have hints := plainly cursor
  rwa [Reply.hint, reply] at hints

theorem Silent.muted (silent : Silent parser) : Muted parser := by
  intro cursor fault _
  simp [silent cursor]

theorem Silent.honest (silent : Silent parser) (plainly : HintsPlainly parser) :
    Honest recovery follow parser :=
  ⟨fun cursor _ _ _ fault member => by simp [silent cursor] at member, plainly⟩

/-! ## Single tokens -/

theorem silent_accept (expected : List Expected) (read : Token → Option α) :
    Silent (accept expected read) := by
  intro cursor
  unfold accept
  split
  · rfl
  · split <;> rfl

theorem honest_accept (expected : List Expected) (read : Token → Option α) :
    Honest recovery follow (accept expected read) := by
  refine (silent_accept expected read).honest ?_
  intro cursor fault member
  unfold accept at member
  split at member
  · cases member
    exact Fault.plain_unexpected _ _ _
  · split at member
    · cases member
    · cases member
      exact Fault.plain_unexpected _ _ _

theorem silent_exactly (lexeme : Token) : Silent (exactly lexeme) := by
  intro cursor
  unfold exactly
  split
  · rfl
  · split <;> rfl

theorem honest_exactly (lexeme : Token) : Honest recovery follow (exactly lexeme) := by
  refine (silent_exactly lexeme).honest ?_
  intro cursor fault member
  unfold exactly at member
  split at member
  · cases member
    exact Fault.plain_unexpected _ _ _
  · split at member
    · cases member
    · cases member
      exact Fault.plain_unexpected _ _ _

theorem silent_finish : Silent finish := by
  intro cursor
  unfold finish
  split <;> rfl

theorem honest_finish : Honest recovery follow finish := by
  refine silent_finish.honest ?_
  intro cursor fault member
  unfold finish at member
  split at member
  · cases member
  · cases member
    exact Fault.plain_unexpected _ _ _

theorem silent_butNot (unwanted : Parser α) : Silent (butNot unwanted) := by
  intro cursor
  unfold butNot
  split <;> rfl

theorem honest_butNot (unwanted : Parser α) : Honest recovery follow (butNot unwanted) := by
  refine (silent_butNot unwanted).honest ?_
  intro cursor fault member
  unfold butNot at member
  split at member
  · cases member
  · cases member
    exact Fault.plain_unexpected _ _ _

/-! ## Values passed on -/

theorem faults_mapSpan (f : Cursor → Cursor → α → β) (cursor : Cursor) :
    (parser.mapSpan f cursor).faults = (parser cursor).faults := by
  unfold mapSpan
  dsimp only
  split <;> rfl

theorem hint_mapSpan (f : Cursor → Cursor → α → β) (cursor : Cursor) :
    (parser.mapSpan f cursor).hint = (parser cursor).hint := by
  cases outcome : (parser cursor).outcome <;> simp [mapSpan, Reply.hint, outcome]

theorem HintsPlainly.mapSpan (f : Cursor → Cursor → α → β) (plainly : HintsPlainly parser) :
    HintsPlainly (parser.mapSpan f) := by
  intro cursor
  rw [hint_mapSpan]
  exact plainly cursor

theorem Honest.mapSpan (f : Cursor → Cursor → α → β) (honest : Honest recovery follow parser) :
    Honest recovery follow (parser.mapSpan f) := by
  refine ⟨?_, honest.hints.mapSpan f⟩
  intro cursor success reply after
  obtain ⟨inner, read, same, _⟩ := mapSpan_ok f cursor success reply
  rw [faults_mapSpan]
  exact honest.told cursor inner read (same ▸ after)

theorem Honest.map (f : α → β) (honest : Honest recovery follow parser) :
    Honest recovery follow (parser.map f) :=
  honest.mapSpan _

theorem Honest.mapAt (f : Nat → α → β) (honest : Honest recovery follow parser) :
    Honest recovery follow (parser.mapAt f) :=
  honest.mapSpan _

theorem Silent.mapSpan (f : Cursor → Cursor → α → β) (silent : Silent parser) :
    Silent (parser.mapSpan f) :=
  fun cursor => (faults_mapSpan f cursor).trans (silent cursor)

theorem Silent.map (f : α → β) (silent : Silent parser) : Silent (parser.map f) :=
  silent.mapSpan _

theorem Silent.mapAt (f : Nat → α → β) (silent : Silent parser) : Silent (parser.mapAt f) :=
  silent.mapSpan _

theorem Muted.mapSpan (f : Cursor → Cursor → α → β) (muted : Muted parser) :
    Muted (parser.mapSpan f) := by
  intro cursor fault failed
  rw [faults_mapSpan]
  exact muted cursor fault (mapSpan_error f parser cursor fault failed)

theorem faults_within (part : Part) (cursor : Cursor) :
    (parser.within part cursor).faults = (parser cursor).faults.map (Fault.enter part) := by
  unfold within
  dsimp only
  split <;> rfl

theorem hint_within (part : Part) (cursor : Cursor) :
    (parser.within part cursor).hint = (parser cursor).hint.map (Fault.enter part) := by
  cases outcome : (parser cursor).outcome <;> simp [within, Reply.hint, outcome]

theorem Honest.within (part : Part) (honest : Honest recovery follow parser) :
    Honest recovery follow (parser.within part) := by
  constructor
  · intro cursor success reply after fault member
    obtain ⟨inner, read, same, _⟩ := within_ok part cursor success reply
    rw [faults_within] at member
    obtain ⟨told, found, rfl⟩ := List.mem_map.mp member
    exact honest.told cursor inner read (same ▸ after) told found
  · intro cursor fault member
    rw [hint_within] at member
    obtain ⟨hint, found, rfl⟩ := Option.map_eq_some_iff.mp member
    exact honest.hints cursor hint found

theorem Silent.within (part : Part) (silent : Silent parser) : Silent (parser.within part) := by
  intro cursor
  rw [faults_within, silent cursor]
  rfl

theorem Muted.within (part : Part) (muted : Muted parser) : Muted (parser.within part) := by
  intro cursor fault failed told member
  rw [faults_within] at member
  obtain ⟨inner, found, rfl⟩ := List.mem_map.mp member
  cases outcome : (parser cursor).outcome with
  | error stop => exact muted cursor stop outcome inner found
  | ok success => simp [Parser.within, outcome] at failed

/-! ## Sequences -/

theorem HintsPlainly.seq (plainly : HintsPlainly parser) (rest : HintsPlainly other) :
    HintsPlainly (parser.seq other) := by
  intro cursor
  cases left : (parser cursor).outcome with
  | error stop =>
    have plain := plainly.stops cursor stop left
    simpa [Parser.seq, Reply.hint, left] using plain
  | ok begun =>
    have early := plainly.hint cursor begun left
    cases right : (other begun.next).outcome with
    | error stop =>
      have plain := (rest.stops begun.next stop right).furthest early
      simpa [Parser.seq, Reply.hint, left, right] using plain
    | ok ended =>
      have plain := Fault.plain_latest early (rest.hint begun.next ended right)
      simpa [Parser.seq, Reply.hint, left, right] using plain

theorem faults_seq (cursor : Cursor) (begun : Success α)
    (left : (parser cursor).outcome = .ok begun) :
    (parser.seq other cursor).faults = (parser cursor).faults ++ (other begun.next).faults := by
  cases right : (other begun.next).outcome <;> simp only [Parser.seq, left, right]

theorem faults_seq_error (cursor : Cursor) (fault : Fault)
    (left : (parser cursor).outcome = .error fault) :
    (parser.seq other cursor).faults = (parser cursor).faults := by
  simp only [Parser.seq, left]

theorem Silent.seq (silent : Silent parser) (rest : Silent other) : Silent (parser.seq other) := by
  intro cursor
  cases left : (parser cursor).outcome with
  | error fault => rw [faults_seq_error cursor fault left, silent cursor]
  | ok begun =>
    rw [faults_seq cursor begun left, silent cursor, rest begun.next]
    rfl

theorem Muted.seq (silent : Silent parser) (muted : Muted other) : Muted (parser.seq other) := by
  intro cursor fault failed
  cases left : (parser cursor).outcome with
  | error stop =>
    rw [faults_seq_error cursor stop left, silent cursor]
    simp
  | ok begun =>
    rw [faults_seq cursor begun left, silent cursor, List.nil_append]
    cases right : (other begun.next).outcome with
    | error stop => exact muted begun.next stop right
    | ok ended => simp [Parser.seq, left, right] at failed

theorem Honest.seq (honest : Honest recovery (fun _ => True) parser) (takes : Takes least parser)
    (rest : Honest recovery follow other) : Honest recovery follow (parser.seq other) := by
  refine ⟨?_, honest.hints.seq rest.hints⟩
  intro cursor success reply after fault member
  obtain ⟨begun, ended, left, right, same, _⟩ := seq_ok other cursor success reply
  rw [faults_seq cursor begun left] at member
  rcases List.mem_append.mp member with front | back
  · exact honest.told cursor begun left trivial fault front
  · obtain ⟨taken, _, spans⟩ := takes cursor begun left
    exact (rest.told begun.next ended right (same ▸ after) fault back).behind spans

theorem Honest.seqRight (honest : Honest recovery (fun _ => True) parser)
    (takes : Takes least parser) (rest : Honest recovery follow other) :
    Honest recovery follow (parser.seqRight other) :=
  (honest.seq takes rest).map _

theorem Honest.seqLeft (honest : Honest recovery (fun _ => True) parser)
    (takes : Takes least parser) (rest : Honest recovery follow other) :
    Honest recovery follow (parser.seqLeft other) :=
  (honest.seq takes rest).map _

theorem Silent.seqLeft (silent : Silent parser) (rest : Silent other) :
    Silent (parser.seqLeft other) :=
  (silent.seq rest).map _

theorem faults_between (opening closing : Token) (cursor start : Cursor)
    (opened : Spans cursor [opening] start) :
    (parser.between opening closing cursor).faults = (parser start).faults := by
  obtain ⟨rest, found, rfl⟩ := (spans_singleton _ _ _).mp opened
  have first : (exactly opening cursor).outcome = .ok ⟨(), none, ⟨cursor.index + 1, rest⟩⟩ := by
    simp [exactly, found, Reply.success]
  have inner : ((exactly opening).seqRight parser cursor).faults =
      (parser ⟨cursor.index + 1, rest⟩).faults := by
    rw [Parser.seqRight, Parser.map, faults_mapSpan, faults_seq cursor _ first,
      silent_exactly opening cursor, List.nil_append]
  rw [Parser.between, Parser.seqLeft, Parser.map, faults_mapSpan, ← inner]
  cases outcome : ((exactly opening).seqRight parser cursor).outcome with
  | error fault => exact faults_seq_error cursor fault outcome
  | ok begun =>
    rw [faults_seq cursor begun outcome, silent_exactly closing begun.next, List.append_nil]

/-- What is closed has been followed as it should be. -/
theorem Honest.between (opening closing : Token)
    (honest : Honest recovery (· = some closing) parser) :
    Honest recovery follow (parser.between opening closing) := by
  have single (lexeme : Token) : Honest recovery follow (exactly lexeme) := honest_exactly lexeme
  have plainly : HintsPlainly (parser.between opening closing) :=
    ((((single opening).hints.seq honest.hints).mapSpan _).seq (single closing).hints).mapSpan _
  refine ⟨?_, plainly⟩
  intro cursor success reply _ fault member
  obtain ⟨start, stop, opened, read, closed, _⟩ := between_ok opening closing cursor success reply
  rw [faults_between opening closing cursor start opened] at member
  exact (honest.told start stop read (by rw [closed.1]; rfl) fault member).behind opened

/-! ## Alternatives -/

theorem hintsPlainly_firstOf (alternatives : List (Parser α)) (seen : Option Fault)
    (early : ∀ fault ∈ seen, fault.Plain)
    (each : ∀ alternative ∈ alternatives, HintsPlainly alternative) :
    HintsPlainly (firstOf seen alternatives) := by
  intro cursor
  induction alternatives generalizing seen with
  | nil =>
    rintro fault ⟨⟩
    cases seen with
    | none => exact Fault.plain_unexpected _ _ _
    | some fault => exact early fault rfl
  | cons first others ih =>
    have plainly := each first (by simp)
    cases outcome : (first cursor).outcome with
    | ok success =>
      simp only [firstOf, outcome]
      exact plainly cursor
    | error stop =>
      simp only [firstOf, outcome]
      refine ih _ (Fault.plain_latest early ?_) fun alternative member => each _ (by simp [member])
      rintro fault ⟨⟩
      exact plainly.stops cursor stop outcome

theorem honest_choice (alternatives : List (Parser α))
    (each : ∀ alternative ∈ alternatives, Honest recovery follow alternative) :
    Honest recovery follow (choice alternatives) := by
  constructor
  · intro cursor success reply after
    obtain ⟨alternative, member, same⟩ := firstOf_ok alternatives none cursor success reply
    rw [choice, same] at reply ⊢
    exact (each alternative member).told cursor success reply after
  · exact hintsPlainly_firstOf alternatives none (by simp) fun alternative member =>
      (each alternative member).hints

/-- A choice that fails has forgotten what its alternatives told. -/
theorem faults_choice_error (alternatives : List (Parser α)) (cursor : Cursor) (fault : Fault)
    (failed : (choice alternatives cursor).outcome = .error fault) :
    (choice alternatives cursor).faults = [] := by
  unfold choice at failed ⊢
  generalize (none : Option Fault) = seen at failed ⊢
  induction alternatives generalizing seen with
  | nil => rfl
  | cons first others ih =>
    cases outcome : (first cursor).outcome with
    | ok success => simp [firstOf, outcome] at failed
    | error stop =>
      simp only [firstOf, outcome] at failed ⊢
      exact ih _ failed

theorem muted_choice (alternatives : List (Parser α)) : Muted (choice alternatives) := by
  intro cursor fault failed told member
  rw [faults_choice_error alternatives cursor fault failed] at member
  cases member

theorem faults_withHint (reply : Reply α) (earlier : Option Fault) :
    (reply.withHint earlier).faults = reply.faults := by
  unfold Reply.withHint
  split <;> rfl

theorem plain_withHint (reply : Reply α) (earlier : Option Fault)
    (plain : ∀ fault ∈ reply.hint, fault.Plain) (other : ∀ fault ∈ earlier, fault.Plain) :
    ∀ fault ∈ (reply.withHint earlier).hint, fault.Plain := by
  cases outcome : reply.outcome with
  | error stop => simpa only [Reply.withHint, outcome] using plain
  | ok success =>
    have late : ∀ fault ∈ success.hint, fault.Plain := by
      simpa only [Reply.hint, outcome] using plain
    simpa only [Reply.withHint, Reply.hint, outcome] using Fault.plain_latest late other

theorem plain_better (first second : Reply α) (plain : ∀ fault ∈ first.hint, fault.Plain)
    (other : ∀ fault ∈ second.hint, fault.Plain) :
    ∀ fault ∈ (better first second).hint, fault.Plain := by
  unfold better
  split
  · exact plain_withHint first _ plain other
  · exact plain_withHint second _ other plain
  · unfold balance
    split
    · rename_i left right leftFailed rightFailed
      have late : right.Plain := other right (by simp [Reply.hint, rightFailed])
      rintro fault ⟨⟩
      refine (plain left (by simp [Reply.hint, leftFailed])).furthest ?_
      rintro fault ⟨⟩
      exact late
    · exact plain_withHint first _ plain other

theorem faults_better (first second : Reply α) :
    (better first second).faults = first.faults ∧
        (∀ success, (better first second).outcome = .ok success →
          ∃ inner, first.outcome = .ok inner ∧ inner.next = success.next) ∨
      (better first second).faults = second.faults ∧
        ∀ success, (better first second).outcome = .ok success →
          ∃ inner, second.outcome = .ok inner ∧ inner.next = success.next := by
  have kept (reply : Reply α) (earlier : Option Fault) (success : Success α)
      (read : (reply.withHint earlier).outcome = .ok success) :
      ∃ inner, reply.outcome = .ok inner ∧ inner.next = success.next := by
    obtain ⟨inner, found, same, _⟩ := withHint_ok reply earlier success read
    exact ⟨inner, found, same⟩
  unfold better
  split
  · exact .inl ⟨faults_withHint _ _, kept _ _⟩
  · exact .inr ⟨faults_withHint _ _, kept _ _⟩
  · unfold balance
    split
    · exact .inl ⟨rfl, fun success read => by cases read⟩
    · exact .inl ⟨faults_withHint _ _, kept _ _⟩

/-- What is told of two alternatives is told by one of them, and by one that yields a value
if there is one. -/
theorem orElse_either (first second : Parser α) (cursor : Cursor) :
    ∃ parser, (parser = first ∨ parser = second) ∧
      (first.orElse second cursor).faults = (parser cursor).faults ∧
      ∀ success, (first.orElse second cursor).outcome = .ok success →
        ∃ inner, (parser cursor).outcome = .ok inner ∧ inner.next = success.next := by
  unfold orElse
  dsimp only
  split
  · exact ⟨first, .inl rfl, rfl, fun success read => ⟨success, read, rfl⟩⟩
  · split
    · refine ⟨second, .inr rfl, faults_withHint _ _, fun success read => ?_⟩
      obtain ⟨inner, found, same, _⟩ := withHint_ok _ _ success read
      exact ⟨inner, found, same⟩
    · rcases faults_better (first cursor) (second cursor) with ⟨same, read⟩ | ⟨same, read⟩
      · exact ⟨first, .inl rfl, same, read⟩
      · exact ⟨second, .inr rfl, same, read⟩

theorem Honest.orElse {second : Parser α} (honest : Honest recovery follow parser)
    (rest : Honest recovery follow second) : Honest recovery follow (parser.orElse second) := by
  constructor
  · intro cursor success reply after
    obtain ⟨alternative, either, same, yields⟩ := orElse_either parser second cursor
    obtain ⟨inner, read, next⟩ := yields success reply
    rw [same]
    rcases either with rfl | rfl
    · exact honest.told cursor inner read (next ▸ after)
    · exact rest.told cursor inner read (next ▸ after)
  · intro cursor
    have left := honest.hints cursor
    have right := rest.hints cursor
    unfold Parser.orElse
    dsimp only
    split
    · exact left
    · split
      · exact plain_withHint _ _ right left
      · exact plain_better _ _ left right

theorem Silent.orElse {second : Parser α} (silent : Silent parser) (rest : Silent second) :
    Silent (parser.orElse second) := by
  intro cursor
  obtain ⟨alternative, rfl | rfl, same, _⟩ := orElse_either parser second cursor
  · exact same.trans (silent cursor)
  · exact same.trans (rest cursor)

theorem Honest.optional (honest : Honest recovery follow parser) :
    Honest recovery follow (Parser.optional parser) := by
  constructor
  · intro cursor success reply after fault member
    cases outcome : (parser cursor).outcome with
    | error stop => simp [Parser.optional, outcome] at member
    | ok inner =>
      simp only [Parser.optional, outcome, Except.ok.injEq] at reply member
      rw [← reply] at after
      exact honest.told cursor inner outcome after fault member
  · intro cursor
    cases outcome : (parser cursor).outcome with
    | error stop =>
      simp only [Parser.optional, Reply.hint, outcome]
      rintro fault ⟨⟩
      exact honest.hints.stops cursor _ outcome
    | ok inner =>
      simp only [Parser.optional, Reply.hint, outcome]
      exact honest.hints.hint cursor inner outcome

/-! ## Repetitions -/

theorem manyFrom_tells (honest : Honest recovery (fun _ => True) parser)
    (takes : Takes least parser) (muted : Muted parser) (fuel : Nat) (hint : Option Fault)
    (plain : ∀ fault ∈ hint, fault.Plain) (cursor : Cursor) :
    ∃ success, (manyFrom parser fuel hint cursor).outcome = .ok success ∧
      (∀ fault ∈ success.hint, fault.Plain) ∧
      ∀ fault ∈ (manyFrom parser fuel hint cursor).faults, fault.Fair recovery cursor := by
  induction fuel generalizing hint cursor with
  | zero => exact ⟨_, rfl, plain, by simp [manyFrom]⟩
  | succ fuel ih =>
    cases outcome : (parser cursor).outcome with
    | error stop =>
      simp only [manyFrom, outcome]
      -- The first fault that the failed item got past is kept as a hint.
      refine ⟨_, rfl, Fault.plain_latest plain (Fault.plain_latest ?_ ?_), by simp⟩
      · rintro fault ⟨⟩
        exact honest.hints.stops cursor _ outcome
      · intro fault member
        exact muted cursor stop outcome fault (List.mem_of_mem_head? member)
    | ok begun =>
      obtain ⟨taken, _, spans⟩ := takes cursor begun outcome
      obtain ⟨success, read, hints, fair⟩ := ih (Fault.latest hint begun.hint)
        (Fault.plain_latest plain (honest.hints.hint cursor begun outcome)) begun.next
      simp only [manyFrom, outcome, Reply.after, Reply.mapValue, read]
      refine ⟨_, rfl, hints, ?_⟩
      intro fault member
      rcases List.mem_append.mp member with front | back
      · exact honest.told cursor begun outcome trivial fault front
      · exact (fair fault back).behind spans

theorem Honest.many (honest : Honest recovery (fun _ => True) parser)
    (takes : Takes least parser) (muted : Muted parser) :
    Honest recovery follow (Parser.many parser) := by
  have tells (cursor : Cursor) := manyFrom_tells honest takes muted (cursor.rest.length + 1) none
    (by simp) cursor
  constructor
  · intro cursor _ _ _
    obtain ⟨_, _, _, fair⟩ := tells cursor
    exact fair
  · intro cursor fault member
    obtain ⟨success, read, plain, _⟩ := tells cursor
    rw [Reply.hint, Parser.many, read] at member
    exact plain fault member

theorem muted_many : Muted (Parser.many parser) := by
  intro cursor fault failed
  obtain ⟨success, read⟩ := manyFrom_ok parser (cursor.rest.length + 1) none cursor
  rw [Parser.many, read] at failed
  cases failed

theorem Honest.recoverWith {fallback : Parser α} (honest : Honest recovery follow parser)
    (muted : Muted parser) (rest : Honest recovery follow fallback) :
    Honest recovery follow (recoverWith parser fallback) := by
  constructor
  · intro cursor success reply after fault member
    cases plain : (parser cursor).outcome with
    | ok found =>
      rw [Parser.recoverWith, plain] at reply member
      exact honest.told cursor success (plain ▸ reply) after fault member
    | error stop =>
      rw [Parser.recoverWith, plain] at reply member
      rcases List.mem_append.mp member with early | late
      · rcases List.mem_append.mp early with told | last
        · exact (muted cursor stop plain fault told).fair
        · obtain rfl := List.mem_singleton.mp last
          exact (honest.hints.stops cursor fault plain).fair
      · exact rest.told cursor success reply after fault late
  · intro cursor fault member
    cases plain : (parser cursor).outcome with
    | ok found =>
      rw [Parser.recoverWith, plain] at member
      exact honest.hints cursor fault member
    | error stop =>
      rw [Parser.recoverWith, plain] at member
      exact rest.hints cursor fault member

theorem Muted.recoverWith {fallback : Parser α} (plainly : HintsPlainly parser)
    (muted : Muted parser) (rest : Muted fallback) : Muted (recoverWith parser fallback) := by
  intro cursor fault failed told member
  cases plain : (parser cursor).outcome with
  | ok found =>
    rw [Parser.recoverWith, plain] at failed
    cases plain.symm.trans failed
  | error stop =>
    rw [Parser.recoverWith, plain] at failed member
    rcases List.mem_append.mp member with early | late
    · rcases List.mem_append.mp early with inner | last
      · exact muted cursor stop plain told inner
      · obtain rfl := List.mem_singleton.mp last
        exact plainly.stops cursor told plain
    · exact rest cursor fault failed told late

end

end Parser

end BuildLang
