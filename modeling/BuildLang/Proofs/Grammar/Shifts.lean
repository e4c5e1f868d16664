import BuildLang.Proofs.Grammar.Advance
import BuildLang.Proofs.Tree.Moving

/-!
# Counting from elsewhere

The grammar looks at the tokens behind a cursor and never at how many were read
before.  So where a parser is started further on, its reply is the same one with
every token index in it moved on as far.
-/

set_option autoImplicit false

namespace BuildLang

variable {α β : Type}

def Cursor.shift (distance : Nat) (cursor : Cursor) : Cursor :=
  ⟨cursor.index + distance, cursor.rest⟩

def Fault.shift (distance : Nat) (fault : Fault) : Fault :=
  { fault with reach := fault.reach + distance, start := fault.start + distance }

def Step.shift (distance : Nat) (step : Step) : Step :=
  ⟨step.start + distance, step.stop + distance, step.statement.mapPosition (· + distance)⟩

/-- The reply with its value moved by `move`, and with every fault and the cursor
behind the value moved on by `distance`. -/
def Reply.shift (distance : Nat) (move : α → β) (reply : Reply α) : Reply β :=
  ⟨reply.faults.map (Fault.shift distance),
    match reply.outcome with
    | .ok success =>
        .ok ⟨move success.value, success.hint.map (Fault.shift distance),
          success.next.shift distance⟩
    | .error fault => .error (fault.shift distance)⟩

/-! ## Faults -/

namespace Fault

theorem furthest_shift (distance : Nat) (first : Fault) (second : Option Fault) :
    (first.shift distance).furthest (second.map (Fault.shift distance)) =
      (first.furthest second).shift distance := by
  cases second with
  | none => rfl
  | some second =>
    simp only [Option.map_some, furthest, Fault.shift, Nat.add_lt_add_iff_right]
    split
    · rfl
    · split <;> rfl

theorem latest_shift (distance : Nat) (first second : Option Fault) :
    latest (first.map (Fault.shift distance)) (second.map (Fault.shift distance)) =
      (latest first second).map (Fault.shift distance) := by
  cases second with
  | none => rfl
  | some second => exact congrArg some (furthest_shift distance second first)

theorem enter_shift (distance : Nat) (part : Part) :
    Fault.enter part ∘ Fault.shift distance = Fault.shift distance ∘ Fault.enter part :=
  rfl

end Fault

/-! ## Replies -/

namespace Reply

theorem after_shift (distance : Nat) (move : α → β) (earlier : List Fault) (reply : Reply α) :
    (reply.shift distance move).after (earlier.map (Fault.shift distance)) =
      (reply.after earlier).shift distance move := by
  simp [Reply.after, Reply.shift]

/-- One more item in front, before the move or after. -/
theorem cons_shift (distance : Nat) (move : α → α) (value : α) (reply : Reply (List α)) :
    (reply.shift distance (List.map move)).mapValue (move value :: ·) =
      (reply.mapValue (value :: ·)).shift distance (List.map move) := by
  obtain ⟨faults, outcome⟩ := reply
  cases outcome <;> rfl

theorem hint_shift (distance : Nat) (move : α → β) (reply : Reply α) :
    (reply.shift distance move).hint = reply.hint.map (Fault.shift distance) := by
  obtain ⟨faults, outcome⟩ := reply
  cases outcome <;> rfl

theorem withHint_shift (distance : Nat) (move : α → β) (reply : Reply α)
    (earlier : Option Fault) :
    (reply.shift distance move).withHint (earlier.map (Fault.shift distance)) =
      (reply.withHint earlier).shift distance move := by
  obtain ⟨faults, outcome⟩ := reply
  cases outcome with
  | error fault => rfl
  | ok success => simp [Reply.withHint, Reply.shift, Fault.latest_shift]

end Reply

namespace Parser

/-! ## The better of two replies -/

theorem compare_shift (distance first second : Nat) :
    compare (first + distance) (second + distance) = compare first second := by
  simp [compare, compareOfLessAndEq]

theorem compareKnown_shift (distance : Nat) (first second : Option Nat) :
    compareKnown (first.map (· + distance)) (second.map (· + distance)) =
      compareKnown first second := by
  cases first with
  | none => rfl
  | some first =>
    cases second with
    | none => rfl
    | some second => exact compare_shift distance first second

theorem lastReach_shift (distance : Nat) (faults : List Fault) :
    lastReach (faults.map (Fault.shift distance)) = (lastReach faults).map (· + distance) := by
  simp only [lastReach, List.getLast?_map, Option.map_map]
  rfl

theorem hintReach_shift (distance : Nat) (hint : Option Fault) :
    (hint.map (Fault.shift distance)).map Fault.reach =
      (hint.map Fault.reach).map (· + distance) := by
  cases hint <;> rfl

/-- Moving two replies on as far does not change which one is better. -/
theorem preference_shift (distance : Nat) (move : α → β) (first second : Reply α) :
    preference (first.shift distance move) (second.shift distance move) =
      preference first second := by
  obtain ⟨faults, outcome⟩ := first
  obtain ⟨others, other⟩ := second
  cases outcome <;> cases other <;>
    simp only [preference, Reply.shift, List.length_map, lastReach_shift, compareKnown_shift,
      hintReach_shift, Fault.shift, compare_shift]

theorem balance_shift (distance : Nat) (move : α → β) (first second : Reply α) :
    balance (first.shift distance move) (second.shift distance move) =
      (balance first second).shift distance move := by
  obtain ⟨faults, outcome⟩ := first
  obtain ⟨others, other⟩ := second
  cases outcome with
  | ok success =>
    have hints := Reply.withHint_shift distance move ⟨faults, .ok success⟩
      (Reply.hint ⟨others, other⟩)
    rw [← Reply.hint_shift distance move] at hints
    simpa only [balance, Reply.shift] using hints
  | error fault =>
    cases other with
    | ok success => rfl
    | error otherFault =>
      have further := Fault.furthest_shift distance fault (some otherFault)
      rw [Option.map_some] at further
      simp only [balance, Reply.shift, further]

theorem better_shift (distance : Nat) (move : α → β) (first second : Reply α) :
    better (first.shift distance move) (second.shift distance move) =
      (better first second).shift distance move := by
  simp only [better, preference_shift, Reply.hint_shift, Reply.withHint_shift, balance_shift]
  cases preference first second <;> rfl

theorem isClean_shift (distance : Nat) (move : α → β) (reply : Reply α) :
    isClean (reply.shift distance move) = isClean reply := by
  obtain ⟨faults, outcome⟩ := reply
  cases outcome with
  | error fault => rfl
  | ok success => cases faults <;> rfl

/-! ## Parsers -/

/-- Started `distance` tokens further on, the parser replies the same, with its value
moved by `move distance` and everything else moved on. -/
def Shifts (parser : Parser α) (move : Nat → α → α) : Prop :=
  ∀ distance cursor,
    parser (cursor.shift distance) = (parser cursor).shift distance (move distance)

/-- No fault points before the cursor. -/
theorem Shifts.start_le {parser : Parser α} {move : Nat → α → α} (shifts : Shifts parser move)
    (cursor : Cursor) : ∀ fault ∈ (parser cursor).faults, cursor.index ≤ fault.start := by
  have moved : cursor = Cursor.shift cursor.index ⟨0, cursor.rest⟩ := by
    simp [Cursor.shift]
  rw [moved, shifts cursor.index]
  intro fault member
  obtain ⟨origin, _, rfl⟩ := List.mem_map.mp member
  simp [Fault.shift, Cursor.shift]

section

variable {parser : Parser α} {move : Nat → α → α} {other : Nat → β → β}

theorem shifts_accept (expected : List Expected) (read : Token → Option α) :
    Shifts (accept expected read) fun _ => id := by
  rintro distance ⟨index, tokens⟩
  cases tokens with
  | nil => rfl
  | cons lexeme rest =>
    cases known : read lexeme with
    | none =>
      simp only [accept, Cursor.shift, known]
      rfl
    | some value =>
      simp only [accept, Cursor.shift, known, Reply.success, Nat.add_right_comm index distance 1]
      rfl

theorem shifts_exactly (lexeme : Token) : Shifts (exactly lexeme) fun _ => id := by
  rintro distance ⟨index, tokens⟩
  cases tokens with
  | nil => rfl
  | cons found rest =>
    by_cases same : found = lexeme
    · simp only [exactly, Cursor.shift, if_pos same, Reply.success, Reply.shift,
        Nat.add_right_comm index distance 1]
      rfl
    · simp only [exactly, Cursor.shift, if_neg same]
      rfl

theorem Shifts.mapSpan (f : Cursor → Cursor → α → β) (shifts : Shifts parser move)
    (commutes : ∀ distance start stop value,
      f (start.shift distance) (stop.shift distance) (move distance value) =
        other distance (f start stop value)) :
    Shifts (parser.mapSpan f) other := by
  intro distance cursor
  simp only [Parser.mapSpan, shifts distance cursor]
  cases reply : parser cursor with
  | mk faults outcome =>
    cases outcome with
    | error fault => rfl
    | ok success => simp [Reply.shift, commutes]

theorem Shifts.map (f : α → β) (shifts : Shifts parser move)
    (commutes : ∀ distance value, f (move distance value) = other distance (f value)) :
    Shifts (parser.map f) other :=
  shifts.mapSpan _ fun distance _ _ value => commutes distance value

theorem Shifts.mapAt (f : Nat → α → β) (shifts : Shifts parser move)
    (commutes : ∀ distance start value,
      f (start + distance) (move distance value) = other distance (f start value)) :
    Shifts (parser.mapAt f) other :=
  shifts.mapSpan _ fun distance start _ value => commutes distance start.index value

theorem Shifts.within (part : Part) (shifts : Shifts parser move) :
    Shifts (parser.within part) move := by
  intro distance cursor
  simp only [Parser.within, shifts distance cursor]
  cases reply : parser cursor with
  | mk faults outcome =>
    cases outcome with
    | error fault => simp [Reply.shift, Fault.enter_shift]; rfl
    | ok success => simp [Reply.shift, Fault.enter_shift]

theorem Shifts.seq {second : Parser β} (shifts : Shifts parser move)
    (rest : Shifts second other) :
    Shifts (parser.seq second) fun distance => Prod.map (move distance) (other distance) := by
  intro distance cursor
  simp only [Parser.seq, shifts distance cursor]
  cases left : parser cursor with
  | mk faults outcome =>
    cases outcome with
    | error fault => rfl
    | ok begun =>
      simp only [Reply.shift, rest distance begun.next]
      cases right : second begun.next with
      | mk later outcome =>
        cases outcome with
        | error fault => simp [Fault.furthest_shift]
        | ok ended => simp [Fault.latest_shift]

theorem Shifts.seqRight {second : Parser β} (shifts : Shifts parser move)
    (rest : Shifts second other) : Shifts (parser.seqRight second) other :=
  (shifts.seq rest).map _ fun _ _ => rfl

theorem Shifts.seqLeft {second : Parser β} (shifts : Shifts parser move)
    (rest : Shifts second other) : Shifts (parser.seqLeft second) move :=
  (shifts.seq rest).map _ fun _ _ => rfl

theorem Shifts.between (opening closing : Token) (shifts : Shifts parser move) :
    Shifts (parser.between opening closing) move :=
  ((shifts_exactly opening).seqRight shifts).seqLeft (shifts_exactly closing)

theorem shifts_firstOf (alternatives : List (Parser α)) (seen : Option Fault) (distance : Nat)
    (cursor : Cursor) (each : ∀ alternative ∈ alternatives, Shifts alternative move) :
    firstOf (seen.map (Fault.shift distance)) alternatives (cursor.shift distance) =
      (firstOf seen alternatives cursor).shift distance (move distance) := by
  induction alternatives generalizing seen with
  | nil => cases seen <;> rfl
  | cons first others ih =>
    rw [List.forall_mem_cons] at each
    obtain ⟨shifts, each⟩ := each
    simp only [firstOf, shifts distance cursor]
    cases reply : first cursor with
    | mk faults outcome =>
      cases outcome with
      | ok success => rfl
      | error fault =>
        rw [← ih (Fault.latest seen (some fault)) each, ← Fault.latest_shift]
        rfl

theorem shifts_choice (alternatives : List (Parser α))
    (each : ∀ alternative ∈ alternatives, Shifts alternative move) :
    Shifts (choice alternatives) move :=
  fun distance cursor => shifts_firstOf alternatives none distance cursor each

theorem Shifts.orElse {second : Parser α} (shifts : Shifts parser move)
    (others : Shifts second move) : Shifts (parser.orElse second) move := by
  intro distance cursor
  simp only [Parser.orElse, shifts distance cursor, others distance cursor, isClean_shift,
    Reply.hint_shift, Reply.withHint_shift, better_shift]
  split
  · rfl
  · split <;> rfl

theorem Shifts.optional (shifts : Shifts parser move) :
    Shifts (Parser.optional parser) fun distance => Option.map (move distance) := by
  intro distance cursor
  simp only [Parser.optional, shifts distance cursor]
  cases reply : parser cursor with
  | mk faults outcome => cases outcome <;> rfl

theorem Shifts.butNot (shifts : Shifts parser move) :
    Shifts (Parser.butNot parser) fun _ => id := by
  rintro distance ⟨index, tokens⟩
  simp only [Parser.butNot, shifts distance ⟨index, tokens⟩]
  cases reply : parser ⟨index, tokens⟩ with
  | mk faults outcome =>
    cases outcome with
    | ok success => cases tokens <;> rfl
    | error fault =>
      cases tokens with
      | nil => rfl
      | cons lexeme rest =>
        simp only [Cursor.shift, Reply.shift, Reply.success, Nat.add_right_comm index distance 1]
        rfl

/-! ## Repetitions -/

theorem shifts_manyFrom (shifts : Shifts parser move) (fuel : Nat) (hint : Option Fault)
    (distance : Nat) (cursor : Cursor) :
    manyFrom parser fuel (hint.map (Fault.shift distance)) (cursor.shift distance) =
      (manyFrom parser fuel hint cursor).shift distance (List.map (move distance)) := by
  induction fuel generalizing hint cursor with
  | zero => rfl
  | succ fuel ih =>
    simp only [manyFrom, shifts distance cursor]
    cases reply : parser cursor with
    | mk faults outcome =>
      cases outcome with
      | error fault =>
        have inner := Fault.latest_shift distance (some fault) faults.head?
        have outer := Fault.latest_shift distance hint (Fault.latest (some fault) faults.head?)
        simp only [Reply.shift, List.head?_map, List.map_nil, ← outer, ← inner]
        rfl
      | ok success =>
        rw [← Reply.cons_shift, ← Reply.after_shift, ← ih, ← Fault.latest_shift]
        rfl

theorem Shifts.many (shifts : Shifts parser move) :
    Shifts (Parser.many parser) fun distance => List.map (move distance) :=
  fun distance cursor => shifts_manyFrom shifts (cursor.rest.length + 1) none distance cursor

theorem Repeats.shift (shifts : Shifts parser move) {cursor next : Cursor} {faults : List Fault}
    {values : List α} (repeats : Repeats parser cursor faults values next) (distance : Nat) :
    Repeats parser (cursor.shift distance) (faults.map (Fault.shift distance))
      (values.map (move distance)) (next.shift distance) := by
  induction repeats with
  | done => exact .done
  | @more cursor middle next faults later hint value others first _ ih =>
    have moved := shifts distance cursor
    rw [first] at moved
    rw [List.map_append]
    exact .more moved ih

/-- No fault of a repetition points before the first item. -/
theorem Repeats.start_le (takes : Takes 1 parser) (shifts : Shifts parser move)
    {cursor next : Cursor} {faults : List Fault} {values : List α}
    (repeats : Repeats parser cursor faults values next) :
    ∀ fault ∈ faults, cursor.index ≤ fault.start := by
  induction repeats with
  | done => simp
  | @more cursor middle next begun later hint value others first _ ih =>
    have read : (parser cursor).outcome = .ok ⟨value, hint, middle⟩ := by rw [first]
    obtain ⟨taken, _, spans⟩ := takes cursor _ read
    have onward : middle.index = cursor.index + taken.length := spans.2
    intro fault member
    rcases List.mem_append.mp member with here | behind
    · apply shifts.start_le cursor
      rw [first]
      exact here
    · have further := ih fault behind
      omega

theorem shifts_commaItems (shifts : Shifts parser move) (fuel : Nat) (hint : Option Fault)
    (distance : Nat) (cursor : Cursor) :
    commaItems parser fuel (hint.map (Fault.shift distance)) (cursor.shift distance) =
      (commaItems parser fuel hint cursor).shift distance (List.map (move distance)) := by
  induction fuel generalizing hint cursor with
  | zero => rfl
  | succ fuel ih =>
    obtain ⟨index, tokens⟩ := cursor
    unfold commaItems
    simp only [Cursor.shift]
    split
    · rename_i rest
      have moved := shifts distance ⟨index + 1, rest⟩
      simp only [Cursor.shift] at moved
      rw [Nat.add_right_comm index distance 1, moved]
      cases reply : parser ⟨index + 1, rest⟩ with
      | mk faults outcome =>
        cases outcome with
        | error fault =>
          have latest := Fault.latest_shift distance hint (some fault)
          simp only [Reply.shift, List.map_nil, ← latest]
          rfl
        | ok success =>
          rw [← Reply.cons_shift, ← Reply.after_shift, ← ih, ← Fault.latest_shift]
          rfl
    · have latest := Fault.latest_shift distance hint
        (some (Cursor.unexpected ⟨index, tokens⟩ [.token .comma]))
      simp only [Reply.shift, List.map_nil, ← latest]
      rfl

theorem shifts_separated (shifts : Shifts parser move) :
    Shifts (separated parser) fun distance => List.map (move distance) := by
  intro distance cursor
  simp only [separated, shifts distance cursor]
  cases reply : parser cursor with
  | mk faults outcome =>
    cases outcome with
    | error fault => rfl
    | ok success =>
      rw [← Reply.cons_shift, ← Reply.after_shift, ← shifts_commaItems shifts]
      rfl

theorem commaFault_shift (trailing : TrailingComma) (distance reach comma : Nat)
    (noItem : Bool) :
    commaFault trailing (reach + distance) (comma + distance) noItem =
      (commaFault trailing reach comma noItem).map (Fault.shift distance) := by
  cases noItem <;> cases trailing <;> rfl

theorem shifts_commaList (trailing : TrailingComma) (shifts : Shifts parser move) :
    Shifts (commaList trailing parser) fun distance => List.map (move distance) := by
  intro distance cursor
  have comma : Shifts (Parser.mapAt (fun index _ => index) (exactly .comma))
      (fun distance index => index + distance) :=
    (shifts_exactly .comma).mapAt _ fun _ _ _ => rfl
  have both := ((shifts_separated shifts).seq comma.optional) distance cursor
  simp only [commaList, both]
  cases ((separated parser).seq
      (Parser.optional (Parser.mapAt (fun index _ => index) (exactly .comma))) cursor) with
  | mk faults outcome =>
    cases outcome with
    | error fault => rfl
    | ok success =>
      obtain ⟨⟨items, comma⟩, hint, next⟩ := success
      cases comma with
      | none => simp [Reply.shift]
      | some index =>
        have fault := commaFault_shift trailing distance next.index index items.isEmpty
        simp [Reply.shift, Cursor.shift, fault, Option.toList_map]

end

/-! ## Argument lists -/

theorem shifts_callArguments {arguments : Parser α} {move : Nat → α → α}
    (shifts : Shifts arguments move) : Shifts (callArguments arguments) move :=
  shifts.between .leftParen .rightParen

def Balance.shift (distance : Nat) (balance : Balance) : Balance :=
  { balance with unclosed := balance.unclosed.map (Fault.shift distance) }

theorem Balance.note_shift (balance : Balance) (distance index : Nat) (found : Option Token) :
    (balance.shift distance).note (index + distance) found =
      (balance.note index found).shift distance := by
  obtain ⟨parens, brackets, braces, unclosed⟩ := balance
  cases unclosed with
  | some fault => simp [Balance.note, Balance.shift]
  | none =>
    by_cases last : parens = 1
    · simp [Balance.note, Balance.shift, last, unclosedAt, Fault.shift]
    · simp [Balance.note, Balance.shift, last]

theorem Balance.step_shift (balance : Balance) (distance index : Nat) (lexeme : Token) :
    (balance.shift distance).step (index + distance) lexeme =
      (balance.step index lexeme).shift distance := by
  cases lexeme with
  | rightBracket =>
    simp only [Balance.step, apply_ite (Balance.shift distance), ← Balance.note_shift]
    rfl
  | rightBrace =>
    simp only [Balance.step, apply_ite (Balance.shift distance), ← Balance.note_shift]
    rfl
  | _ => rfl

theorem closingParen_shift (balance : Balance) (distance index : Nat) (tokens : List Token) :
    closingParen (balance.shift distance) (index + distance) tokens =
      (closingParen balance index tokens).map (Option.map (Fault.shift distance))
        (Option.map (Cursor.shift distance)) := by
  fun_induction closingParen balance index tokens with
  | case1 balance index =>
    simp only [closingParen, Balance.note_shift]
    rfl
  | case2 balance index rest ih =>
    rw [← ih, Nat.add_right_comm index 1 distance]
    rfl
  | case3 balance index rest last =>
    have same : (balance.shift distance).parens = 1 := last
    rw [closingParen, if_pos same, Nat.add_right_comm index distance 1]
    rfl
  | case4 balance index rest more ih =>
    have same : ¬ (balance.shift distance).parens = 1 := more
    rw [closingParen, if_neg same, ← ih, Nat.add_right_comm index 1 distance]
    rfl
  | case5 balance index lexeme rest noOpening noClosing ih =>
    rw [closingParen, Balance.step_shift, ← ih, Nat.add_right_comm index 1 distance]
    · exact noOpening
    · exact noClosing

theorem skipParens_shift (distance : Nat) (cursor : Cursor) :
    skipParens (cursor.shift distance) =
      (skipParens cursor).map (Option.map (Fault.shift distance))
        (Option.map (Cursor.shift distance)) := by
  obtain ⟨index, tokens⟩ := cursor
  unfold skipParens
  simp only [Cursor.shift]
  split
  · rw [Nat.add_right_comm index distance 1]
    exact closingParen_shift ⟨1, 0, 0, none⟩ distance (index + 1) _
  · rfl

theorem Shifts.recoverParens {list : Parser (List α)} {move : Nat → α → α}
    (shifts : Shifts list fun distance => List.map (move distance)) :
    Shifts (Parser.recoverParens list) fun distance => List.map (move distance) := by
  intro distance cursor
  simp only [Parser.recoverParens, shifts distance cursor, skipParens_shift]
  cases reply : list cursor with
  | mk faults outcome =>
    cases outcome with
    | ok success => rfl
    | error fault =>
      obtain ⟨unclosed, closed⟩ := skipParens cursor
      have told : faults.map (Fault.shift distance) ++
          (unclosed.map (Fault.shift distance)).toList =
            (faults ++ unclosed.toList).map (Fault.shift distance) := by
        rw [List.map_append, Option.toList_map]
      simp only [Reply.shift, Prod.map, told, List.getLast?_map]
      cases closed with
      | none => rfl
      | some next =>
        cases (faults ++ unclosed.toList).getLast? with
        | none => rfl
        | some last =>
          simp only [Option.map_some, Fault.shift, Nat.add_lt_add_iff_right]
          split
          · simp [Fault.shift]
          · rfl

theorem shifts_argumentList (recovery : Recovery) (trailing : TrailingComma) {item : Parser α}
    {move : Nat → α → α} (shifts : Shifts item move) :
    Shifts (argumentList recovery trailing item) fun distance => List.map (move distance) := by
  have list := shifts_callArguments (shifts_commaList trailing shifts)
  cases recovery with
  | on => exact list.recoverParens
  | off => exact list

/-! ## Values -/

theorem shifts_identifierName : Shifts identifierName fun _ => id :=
  (shifts_accept _ _).within _

theorem shifts_keyword (name : String) : Shifts (keyword name) fun _ => id :=
  shifts_accept _ _

theorem shifts_stringLiteral :
    Shifts stringLiteral fun distance => StringLiteral.mapPosition (· + distance) :=
  ((shifts_accept _ _).mapAt (fun index raw => StringLiteral.mk raw (some index))
    fun _ _ _ => rfl).within _

theorem shifts_numberLiteral :
    Shifts numberLiteral fun distance => NumberLiteral.mapPosition (· + distance) :=
  ((shifts_accept _ _).mapAt (fun index raw => NumberLiteral.mk raw (some index))
    fun _ _ _ => rfl).within _

theorem shifts_booleanLiteral :
    Shifts booleanLiteral fun distance => BooleanLiteral.mapPosition (· + distance) :=
  (shifts_accept _ _).mapAt _ fun _ _ _ => rfl

theorem shifts_identifier :
    Shifts identifier fun distance => Identifier.mapPosition (· + distance) :=
  shifts_identifierName.mapAt _ fun _ _ _ => rfl

theorem shifts_phrase : Shifts phrase fun distance => Phrase.mapPosition (· + distance) := by
  refine shifts_choice _ ?_
  simp only [List.mem_cons, List.not_mem_nil, or_false, forall_eq_or_imp, forall_eq]
  exact ⟨shifts_stringLiteral.map _ fun _ _ => rfl, shifts_identifier.map _ fun _ _ => rfl⟩

theorem shifts_element : Shifts element fun distance => Element.mapPosition (· + distance) := by
  refine shifts_choice _ ?_
  simp only [List.mem_cons, List.not_mem_nil, or_false, forall_eq_or_imp, forall_eq]
  exact ⟨shifts_stringLiteral.map _ fun _ _ => rfl, shifts_numberLiteral.map _ fun _ _ => rfl,
    shifts_booleanLiteral.map _ fun _ _ => rfl, shifts_identifier.map _ fun _ _ => rfl⟩

theorem shifts_arrayLiteral :
    Shifts arrayLiteral fun distance => ArrayLiteral.mapPosition (· + distance) :=
  (((shifts_commaList _ shifts_element).between _ _).mapAt _ fun _ _ _ => rfl).within _

theorem shifts_arrayOrName :
    Shifts arrayOrName fun distance => ArrayOrName.mapPosition (· + distance) :=
  (shifts_arrayLiteral.map _ fun _ _ => rfl).orElse (shifts_identifier.map _ fun _ _ => rfl)

theorem shifts_patterns :
    Shifts patterns fun distance => List.map (Phrase.mapPosition (· + distance)) :=
  (shifts_commaList _ shifts_phrase).between _ _

theorem shifts_globArgument :
    Shifts globArgument fun distance => GlobArgument.mapPosition (· + distance) := by
  have named := (shifts_identifierName.seqLeft (shifts_exactly .equals)).seq shifts_patterns
  exact (shifts_patterns.map _ fun _ _ => rfl).orElse
    (named.map _ fun _ _ => (GlobArgument.mapPosition_named _ _ _).symm)

theorem shifts_glob : Shifts glob fun distance => Glob.mapPosition (· + distance) := by
  have call := (shifts_exactly .glob).seqRight
    (shifts_callArguments (shifts_commaList .allowed shifts_globArgument))
  exact (call.mapAt _ fun distance start _ =>
    (Glob.mapPosition_ofArguments (· + distance) (some start) _).symm).within _

section

variable {value : Parser (Value Nat)}
  (shifts : Shifts value fun distance => Value.mapPosition (· + distance))

include shifts

theorem shifts_entry : Shifts (entry value) fun distance => Entry.mapPosition (· + distance) :=
  ((shifts_stringLiteral.seqLeft (shifts_exactly .colon)).seq shifts).map _ fun _ _ => rfl

theorem shifts_dict : Shifts (dict value) fun distance => Dict.mapPosition (· + distance) :=
  (((shifts_commaList _ (shifts_entry shifts)).between _ _).mapAt _ fun _ _ _ => rfl).within _

theorem shifts_constraint :
    Shifts (constraint value) fun distance => Constraint.mapPosition (· + distance) :=
  ((shifts_dict shifts).map _ fun _ _ => rfl).orElse (shifts_identifier.map _ fun _ _ => rfl)

omit shifts in
theorem shifts_noMatchError :
    Shifts noMatchError fun distance => Phrase.mapPosition (· + distance) :=
  (((shifts_exactly .comma).seqRight (shifts_keyword "no_match_error")).seqRight
    (shifts_exactly .equals)).seqRight shifts_phrase

theorem shifts_select :
    Shifts (select value) fun distance => Select.mapPosition (· + distance) := by
  have call := (shifts_keyword "select").seqRight
    (shifts_callArguments ((shifts_constraint shifts).seq shifts_noMatchError.optional))
  exact (call.mapAt _ fun _ _ _ => rfl).within _

theorem shifts_valueOver :
    Shifts (valueOver value) fun distance => Value.mapPosition (· + distance) := by
  refine (shifts_choice _ ?_).within _
  simp only [List.mem_cons, List.not_mem_nil, or_false, forall_eq_or_imp, forall_eq]
  exact ⟨shifts_stringLiteral.map _ fun _ _ => rfl, shifts_numberLiteral.map _ fun _ _ => rfl,
    shifts_booleanLiteral.map _ fun _ _ => rfl, shifts_arrayLiteral.map _ fun _ _ => rfl,
    shifts_glob.map _ fun _ _ => rfl,
    (shifts_dict shifts).map _ fun _ _ => (Value.mapPosition_dict _ _).symm,
    (shifts_select shifts).map _ fun _ _ => (Value.mapPosition_select _ _).symm,
    shifts_identifier.map _ fun _ _ => rfl⟩

end

theorem shifts_valueWithin (depth : Nat) :
    Shifts (valueWithin depth) fun distance => Value.mapPosition (· + distance) := by
  induction depth with
  | zero => exact fun _ _ => rfl
  | succ depth ih => exact shifts_valueOver ih

theorem shifts_value : Shifts value fun distance => Value.mapPosition (· + distance) :=
  fun distance cursor => shifts_valueWithin (cursor.rest.length + 1) distance cursor

/-! ## Statements -/

theorem shifts_loadedSymbol :
    Shifts loadedSymbol fun distance => LoadedSymbol.mapPosition (· + distance) := by
  have renamed := (shifts_identifierName.seqLeft (shifts_exactly .equals)).seq
    shifts_stringLiteral
  exact (shifts_stringLiteral.map _ fun _ _ => rfl).orElse (renamed.mapAt _ fun _ _ _ => rfl)

theorem shifts_load : Shifts load fun distance => Load.mapPosition (· + distance) := by
  have label := shifts_stringLiteral.seqLeft (shifts_exactly .comma)
  have call := (shifts_exactly .load).seqRight (shifts_callArguments
    (label.seq (shifts_commaList (.rejected .load) shifts_loadedSymbol)))
  exact (call.mapAt _ fun _ _ _ => rfl).within _

theorem shifts_argument : Shifts argument fun distance => Argument.mapPosition (· + distance) :=
  ((shifts_identifierName.seqLeft (shifts_exactly .equals)).seq shifts_value).map _
    fun _ _ => rfl

theorem shifts_declaration :
    Shifts declaration fun distance => Declaration.mapPosition (· + distance) :=
  shifts_argument.mapAt _ fun _ _ _ => rfl

theorem shifts_ruleName : Shifts ruleName fun _ => id :=
  (shifts_accept _ _).within _

theorem shifts_ruleAttribute :
    Shifts ruleAttribute fun distance => Attribute.mapPosition (· + distance) :=
  shifts_argument.mapAt _ fun _ _ _ => rfl

theorem shifts_rule (recovery : Recovery) :
    Shifts (rule recovery) fun distance => Rule.mapPosition (· + distance) :=
  (shifts_ruleName.seq (shifts_argumentList recovery _ shifts_ruleAttribute)).mapAt _
    fun _ _ _ => rfl

theorem shifts_package (recovery : Recovery) :
    Shifts (package recovery) fun distance => Package.mapPosition (· + distance) :=
  ((shifts_keyword "package").seqRight (shifts_argumentList recovery _ shifts_argument)).mapAt _
    fun distance start _ => (Package.mapPosition_ofArguments (· + distance) (some start) _).symm

theorem shifts_packageGroup (recovery : Recovery) :
    Shifts (packageGroup recovery) fun distance => PackageGroup.mapPosition (· + distance) :=
  ((shifts_keyword "package_group").seqRight
    (shifts_argumentList recovery _ shifts_argument)).mapAt _
    fun distance start _ =>
      (PackageGroup.mapPosition_ofArguments (· + distance) (some start) _).symm

theorem shifts_visibility :
    Shifts visibility fun distance => ArrayOrName.mapPosition (· + distance) :=
  (((shifts_exactly .comma).seqRight shifts_identifierName).seqLeft
    (shifts_exactly .equals)).seqRight shifts_arrayOrName

theorem shifts_exportsFiles :
    Shifts exportsFiles fun distance => ExportsFiles.mapPosition (· + distance) := by
  have files := (shifts_arrayOrName.seq shifts_visibility.optional).seqLeft
    (shifts_exactly .comma).optional
  exact ((shifts_keyword "exports_files").seqRight (shifts_callArguments files)).mapAt _
    fun _ _ _ => rfl

theorem shifts_statement (recovery : Recovery) :
    Shifts (statement recovery) fun distance => Statement.mapPosition (· + distance) := by
  refine shifts_choice _ ?_
  simp only [List.mem_cons, List.not_mem_nil, or_false, forall_eq_or_imp, forall_eq]
  exact ⟨shifts_load.map _ fun _ _ => rfl, (shifts_package recovery).map _ fun _ _ => rfl,
    (shifts_packageGroup recovery).map _ fun _ _ => rfl,
    shifts_exportsFiles.map _ fun _ _ => rfl, (shifts_rule recovery).map _ fun _ _ => rfl,
    shifts_declaration.map _ fun _ _ => rfl⟩

/-! ## Steps -/

theorem Shifts.step {parser : Parser (Statement Nat)}
    (shifts : Shifts parser fun distance => Statement.mapPosition (· + distance)) :
    Shifts (Parser.step parser) Step.shift :=
  shifts.mapSpan _ fun _ _ _ _ => rfl

theorem shifts_statementStart : Shifts statementStart fun _ => id := by
  have sign := (shifts_exactly .leftParen).orElse (shifts_exactly .equals)
  exact (shifts_exactly .load).orElse ((shifts_identifierName.seq sign).map _ fun _ _ => rfl)

theorem shifts_skipped : Shifts skipped Step.shift := by
  have one : Shifts anyToken fun _ => id := shifts_accept [] some
  have run := one.seq shifts_statementStart.butNot.many
  exact Shifts.step (run.map _ fun _ _ => rfl)

theorem Shifts.recoverWith {parser fallback : Parser α} {move : Nat → α → α}
    (shifts : Shifts parser move) (other : Shifts fallback move) :
    Shifts (Parser.recoverWith parser fallback) move := by
  intro distance cursor
  simp only [Parser.recoverWith, shifts distance cursor, other distance cursor]
  cases reply : parser cursor with
  | mk faults outcome =>
    cases outcome with
    | ok success => rfl
    | error fault =>
      rw [← Reply.after_shift, List.map_append]
      rfl

theorem shifts_documentStep (recovery : Recovery) : Shifts (documentStep recovery) Step.shift := by
  have read := (shifts_statement recovery).step
  cases recovery with
  | on => exact read.recoverWith shifts_skipped
  | off => exact read

end Parser

end BuildLang
