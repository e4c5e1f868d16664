import BuildLang.Proofs.Grammar.Steps
import BuildLang.Proofs.Tree.Arguments
import BuildLang.Proofs.Tree.Outline

/-!
# Where nodes lie

The nodes of a value lie along the tokens that it was read from: each begins at a token
that leads it, the nodes in it lie behind that token, and siblings come one behind the
other.  What a statement is read from balances its parentheses, so that reading and
skipping agree on where a call ends.
-/

set_option autoImplicit false

namespace BuildLang

/-- The nodes lie along the tokens, of which the first has the index `start`: one behind
the other, each on a stretch of tokens of its own.  A stretch begins with the token that
leads the node, and the groups of the node are drawn, in order, from nodes that lie
along the rest of it. -/
inductive LieAlong : Nat → List Token → List (Outline Nat) → Prop where
  | done {start : Nat} : LieAlong start [] []
  | skip {start : Nat} {lexeme : Token} {rest : List Token} {nodes : List (Outline Nat)}
      (later : LieAlong (start + 1) rest nodes) : LieAlong start (lexeme :: rest) nodes
  | node {start : Nat} {lexeme : Token} {inner rest : List Token} {lead : Lead}
      {groups : List (List (Outline Nat))} {inside others : List (Outline Nat)}
      (leads : lead.Matches lexeme) (within : LieAlong (start + 1) inner inside)
      (drawn : ∀ group ∈ groups, group.Sublist inside)
      (later : LieAlong (start + 1 + inner.length) rest others) :
      LieAlong start (lexeme :: (inner ++ rest)) (.node lead (some start) groups :: others)

namespace LieAlong

variable {start : Nat} {tokens : List Token} {nodes others : List (Outline Nat)}

theorem skips (start : Nat) (tokens : List Token) : LieAlong start tokens [] := by
  induction tokens generalizing start with
  | nil => exact .done
  | cons lexeme rest ih => exact .skip (ih (start + 1))

theorem append {back : List Token} (first : LieAlong start tokens nodes)
    (second : LieAlong (start + tokens.length) back others) :
    LieAlong start (tokens ++ back) (nodes ++ others) := by
  induction first with
  | done => exact second
  | @skip start lexeme rest nodes _ ih =>
    refine .skip (ih ?_)
    rw [Nat.add_assoc, Nat.add_comm 1]
    exact second
  | @node start lexeme inner rest lead groups inside nodes leads within drawn _ _ ih =>
    rw [List.cons_append, List.append_assoc]
    refine .node leads within drawn (ih ?_)
    have length : start + (lexeme :: (inner ++ rest)).length =
        start + 1 + inner.length + rest.length := by
      simp only [List.length_cons, List.length_append]
      omega
    rw [← length]
    exact second

/-- Some of the nodes lie along the same tokens. -/
theorem sublist (along : LieAlong start tokens nodes) (fewer : others.Sublist nodes) :
    LieAlong start tokens others := by
  induction along generalizing others with
  | done =>
    obtain rfl := List.sublist_nil.mp fewer
    exact .done
  | skip _ ih => exact .skip (ih fewer)
  | @node start lexeme inner rest lead groups inside nodes leads within drawn _ _ ih =>
    rcases List.sublist_cons_iff.mp fewer with without | ⟨kept, rfl, behind⟩
    · exact .skip ((skips (start + 1) inner).append (ih without))
    · exact .node leads within drawn (ih behind)

end LieAlong

namespace Parser

variable {α β : Type}

/-- Where the parser yields a value, the nodes of the value lie along the tokens that it
has taken, and the parentheses among these balance. -/
def Lays (parser : Parser α) (nodes : α → List (Outline Nat)) : Prop :=
  ∀ cursor success, (parser cursor).outcome = .ok success →
    ∃ taken, Spans cursor taken success.next ∧ ParensBalance taken ∧
      LieAlong cursor.index taken (nodes success.value)

/-- The first token leads the value, and the nodes lie behind it. -/
def LaysBehind (parser : Parser α) (lead : α → Lead) (nodes : α → List (Outline Nat)) : Prop :=
  ∀ cursor success, (parser cursor).outcome = .ok success →
    ∃ lexeme taken, Spans cursor (lexeme :: taken) success.next ∧
      ParensBalance (lexeme :: taken) ∧ (lead success.value).Matches lexeme ∧
      LieAlong (cursor.index + 1) taken (nodes success.value)

section

variable {parser : Parser α} {lead : α → Lead} {nodes : α → List (Outline Nat)}
  {other : Parser β} {others : β → List (Outline Nat)}

/-! ## Single tokens -/

theorem laysBehind_accept (expected : List Expected) (read : Token → Option α) (lead : α → Lead)
    (leads : ∀ lexeme value, read lexeme = some value →
      (lead value).Matches lexeme ∧ lexeme ≠ .leftParen ∧ lexeme ≠ .rightParen) :
    LaysBehind (accept expected read) lead fun _ => [] := by
  intro cursor success reply
  obtain ⟨lexeme, spans, known⟩ := accept_ok expected read cursor success reply
  obtain ⟨leads, noOpening, noClosing⟩ := leads lexeme success.value known
  exact ⟨lexeme, [], spans, .single noOpening noClosing, leads, .done⟩

theorem laysBehind_exactly (lexeme : Token) (noOpening : lexeme ≠ .leftParen)
    (noClosing : lexeme ≠ .rightParen) :
    LaysBehind (exactly lexeme) (fun _ => .token lexeme) fun _ => [] :=
  fun cursor success reply => ⟨lexeme, [], exactly_ok lexeme cursor success reply,
    .single noOpening noClosing, rfl, .done⟩

theorem LaysBehind.lays (lays : LaysBehind parser lead nodes) : Lays parser nodes := by
  intro cursor success reply
  obtain ⟨lexeme, taken, spans, balance, _, along⟩ := lays cursor success reply
  exact ⟨lexeme :: taken, spans, balance, .skip along⟩

theorem lays_exactly (lexeme : Token) (noOpening : lexeme ≠ .leftParen)
    (noClosing : lexeme ≠ .rightParen) : Lays (exactly lexeme) fun _ => [] :=
  (laysBehind_exactly lexeme noOpening noClosing).lays

/-! ## Values passed on -/

theorem Lays.fewer {kept : α → List (Outline Nat)} (lays : Lays parser nodes)
    (drawn : ∀ value, (kept value).Sublist (nodes value)) : Lays parser kept := by
  intro cursor success reply
  obtain ⟨taken, spans, balance, along⟩ := lays cursor success reply
  exact ⟨taken, spans, balance, along.sublist (drawn _)⟩

theorem Lays.mapSpan (f : Cursor → Cursor → α → β) (lays : Lays parser nodes)
    (kept : ∀ start stop value, (others (f start stop value)).Sublist (nodes value)) :
    Lays (parser.mapSpan f) others := by
  intro cursor success reply
  obtain ⟨inner, read, next, value⟩ := mapSpan_ok f cursor success reply
  obtain ⟨taken, spans, balance, along⟩ := lays cursor inner read
  rw [← next, ← value]
  exact ⟨taken, spans, balance, along.sublist (kept _ _ _)⟩

theorem Lays.map (f : α → β) (lays : Lays parser nodes)
    (kept : ∀ value, (others (f value)).Sublist (nodes value)) :
    Lays (parser.map f) others :=
  lays.mapSpan _ fun _ _ value => kept value

theorem Lays.within (part : Part) (lays : Lays parser nodes) :
    Lays (parser.within part) nodes := by
  intro cursor success reply
  obtain ⟨inner, read, next, value⟩ := within_ok part cursor success reply
  rw [← next, ← value]
  exact lays cursor inner read

theorem LaysBehind.within (part : Part) (lays : LaysBehind parser lead nodes) :
    LaysBehind (parser.within part) lead nodes := by
  intro cursor success reply
  obtain ⟨inner, read, next, value⟩ := within_ok part cursor success reply
  rw [← next, ← value]
  exact lays cursor inner read

theorem LaysBehind.map {leadOther : β → Lead} (f : α → β) (lays : LaysBehind parser lead nodes)
    (leads : ∀ value, leadOther (f value) = lead value)
    (kept : ∀ value, (others (f value)).Sublist (nodes value)) :
    LaysBehind (parser.map f) leadOther others := by
  intro cursor success reply
  obtain ⟨inner, read, next, value⟩ := mapSpan_ok _ cursor success reply
  obtain ⟨lexeme, taken, spans, balance, first, along⟩ := lays cursor inner read
  rw [← next, ← value, leads]
  exact ⟨lexeme, taken, spans, balance, first, along.sublist (kept _)⟩

/-- A node is made where its first token stands. -/
theorem LaysBehind.node (f : Nat → α → β) (outline : β → Outline Nat)
    (groups : Nat → α → List (List (Outline Nat))) (lays : LaysBehind parser lead nodes)
    (shape : ∀ start value,
      outline (f start value) = .node (lead value) (some start) (groups start value))
    (drawn : ∀ start value, ∀ group ∈ groups start value, group.Sublist (nodes value)) :
    Lays (parser.mapAt f) fun value => [outline value] := by
  intro cursor success reply
  obtain ⟨inner, read, next, value⟩ := mapSpan_ok _ cursor success reply
  obtain ⟨lexeme, taken, spans, balance, leads, along⟩ := lays cursor inner read
  rw [← next, ← value]
  dsimp only
  rw [shape]
  have whole : LieAlong cursor.index (lexeme :: (taken ++ []))
      [.node (lead inner.value) (some cursor.index) (groups cursor.index inner.value)] :=
    .node leads along (drawn cursor.index inner.value) .done
  rw [List.append_nil] at whole
  exact ⟨lexeme :: taken, spans, balance, whole⟩

/-! ## Sequences -/

theorem Lays.seq (lays : Lays parser nodes) (rest : Lays other others) :
    Lays (parser.seq other) fun pair => nodes pair.1 ++ others pair.2 := by
  intro cursor success reply
  obtain ⟨begun, ended, left, right, next, value⟩ := seq_ok other cursor success reply
  obtain ⟨front, frontSpans, frontBalance, frontAlong⟩ := lays cursor begun left
  obtain ⟨back, backSpans, backBalance, backAlong⟩ := rest begun.next ended right
  rw [frontSpans.2] at backAlong
  rw [← next, value]
  exact ⟨front ++ back, (spans_append _ _ _ _).mpr ⟨begun.next, frontSpans, backSpans⟩,
    frontBalance.append backBalance, frontAlong.append backAlong⟩

theorem Lays.seqRight (lays : Lays parser nodes) (rest : Lays other others) :
    Lays (parser.seqRight other) others :=
  (lays.seq rest).map _ fun _ => List.sublist_append_right _ _

theorem Lays.seqLeft (lays : Lays parser nodes) (rest : Lays other others) :
    Lays (parser.seqLeft other) nodes :=
  (lays.seq rest).map _ fun _ => List.sublist_append_left _ _

theorem LaysBehind.seq (lays : LaysBehind parser lead nodes) (rest : Lays other others) :
    LaysBehind (parser.seq other) (fun pair => lead pair.1)
      fun pair => nodes pair.1 ++ others pair.2 := by
  intro cursor success reply
  obtain ⟨begun, ended, left, right, next, value⟩ := seq_ok other cursor success reply
  obtain ⟨lexeme, front, frontSpans, frontBalance, leads, frontAlong⟩ := lays cursor begun left
  obtain ⟨back, backSpans, backBalance, backAlong⟩ := rest begun.next ended right
  have behind : begun.next.index = cursor.index + 1 + front.length := by
    rw [frontSpans.2, List.length_cons]
    omega
  rw [behind] at backAlong
  rw [← next, value]
  exact ⟨lexeme, front ++ back, (spans_append _ _ (lexeme :: front) back).mpr
    ⟨begun.next, frontSpans, backSpans⟩, frontBalance.append backBalance, leads,
    frontAlong.append backAlong⟩

theorem LaysBehind.seqLeft (lays : LaysBehind parser lead nodes) (rest : Lays other others) :
    LaysBehind (parser.seqLeft other) lead nodes :=
  (lays.seq rest).map _ (fun _ => rfl) fun _ => List.sublist_append_left _ _

/-- A fixed token leads what stands behind it. -/
theorem LaysBehind.seqRight {first : Lead} {ignored : Parser Unit}
    (lays : LaysBehind ignored (fun _ => first) fun _ => []) (rest : Lays other others) :
    LaysBehind (ignored.seqRight other) (fun _ => first) others :=
  (lays.seq rest).map _ (fun _ => rfl) fun _ => List.Sublist.refl _

/-! ## Alternatives -/

theorem lays_choice (alternatives : List (Parser α))
    (each : ∀ alternative ∈ alternatives, Lays alternative nodes) :
    Lays (choice alternatives) nodes := by
  intro cursor success reply
  obtain ⟨alternative, member, same⟩ := firstOf_ok alternatives none cursor success reply
  have chosen : (alternative cursor).outcome = .ok success := by
    rw [← same]
    exact reply
  exact each alternative member cursor success chosen

theorem Lays.orElse {second : Parser α} (lays : Lays parser nodes) (rest : Lays second nodes) :
    Lays (parser.orElse second) nodes := by
  intro cursor success reply
  obtain ⟨inner, read | read, next, value⟩ := orElse_ok _ _ cursor success reply
  · rw [← next, ← value]
    exact lays cursor inner read
  · rw [← next, ← value]
    exact rest cursor inner read

theorem Lays.optional (lays : Lays parser nodes) :
    Lays (Parser.optional parser) fun value => value.toList.flatMap nodes := by
  intro cursor success reply
  cases inner : (parser cursor).outcome with
  | error fault =>
    simp only [Parser.optional, inner, Except.ok.injEq] at reply
    rw [← reply]
    exact ⟨[], (spans_nil _ _).mpr rfl, .nil, .done⟩
  | ok found =>
    simp only [Parser.optional, inner, Except.ok.injEq] at reply
    obtain ⟨taken, spans, balance, along⟩ := lays cursor found inner
    rw [← reply]
    exact ⟨taken, spans, balance, by simpa using along⟩

/-! ## Comma lists -/

theorem lays_commaItems (lays : Lays parser nodes) (fuel : Nat) (hint : Option Fault) :
    Lays (commaItems parser fuel hint) (List.flatMap nodes) := by
  intro cursor success reply
  induction fuel generalizing hint cursor success with
  | zero =>
    simp only [commaItems, Except.ok.injEq] at reply
    rw [← reply]
    exact ⟨[], (spans_nil _ _).mpr rfl, .nil, .done⟩
  | succ fuel ih =>
    unfold commaItems at reply
    split at reply
    · rename_i rest found
      cases first : (parser ⟨cursor.index + 1, rest⟩).outcome with
      | error fault =>
        simp only [first, Except.ok.injEq] at reply
        rw [← reply]
        exact ⟨[], (spans_nil _ _).mpr rfl, .nil, .done⟩
      | ok begun =>
        cases later : (commaItems parser fuel (Fault.latest hint begun.hint)
            begun.next).outcome with
        | error fault => simp [first, Reply.after, Reply.mapValue, later] at reply
        | ok ended =>
          simp only [first, Reply.after, Reply.mapValue, later, Except.ok.injEq] at reply
          have comma := (spans_singleton cursor ⟨cursor.index + 1, rest⟩ .comma).mpr
            ⟨rest, found, rfl⟩
          obtain ⟨front, left, frontBalance, frontAlong⟩ := lays _ begun first
          obtain ⟨back, right, backBalance, backAlong⟩ := ih _ begun.next ended later
          rw [left.2] at backAlong
          have balance : ParensBalance [.comma] := .single (by simp) (by simp)
          rw [← reply]
          exact ⟨.comma :: (front ++ back), (spans_cons _ _ _ _).mpr
            ⟨_, comma, (spans_append _ _ _ _).mpr ⟨begun.next, left, right⟩⟩,
            balance.append (frontBalance.append backBalance),
            .skip (frontAlong.append backAlong)⟩
    · simp only [Except.ok.injEq] at reply
      rw [← reply]
      exact ⟨[], (spans_nil _ _).mpr rfl, .nil, .done⟩

theorem lays_separated (lays : Lays parser nodes) :
    Lays (separated parser) (List.flatMap nodes) := by
  intro cursor success reply
  cases first : (parser cursor).outcome with
  | error fault =>
    simp only [separated, first, Except.ok.injEq] at reply
    rw [← reply]
    exact ⟨[], (spans_nil _ _).mpr rfl, .nil, .done⟩
  | ok begun =>
    cases later : (commaItems parser cursor.rest.length begun.hint begun.next).outcome with
    | error fault => simp [separated, first, Reply.after, Reply.mapValue, later] at reply
    | ok ended =>
      simp only [separated, first, Reply.after, Reply.mapValue, later, Except.ok.injEq] at reply
      obtain ⟨front, left, frontBalance, frontAlong⟩ := lays cursor begun first
      obtain ⟨back, right, backBalance, backAlong⟩ :=
        lays_commaItems lays _ _ begun.next ended later
      rw [left.2] at backAlong
      rw [← reply]
      exact ⟨front ++ back, (spans_append _ _ _ _).mpr ⟨begun.next, left, right⟩,
        frontBalance.append backBalance, frontAlong.append backAlong⟩

theorem lays_comma : Lays (exactly .comma) fun _ => [] :=
  lays_exactly .comma (by simp) (by simp)

theorem lays_commaList (trailing : TrailingComma) (lays : Lays parser nodes) :
    Lays (commaList trailing parser) (List.flatMap nodes) := by
  have comma : Lays (Parser.mapAt (fun index _ => index) (exactly .comma)) fun _ => [] :=
    lays_comma.mapSpan _ fun _ _ _ => .slnil
  have both := (lays_separated lays).seq comma.optional
  intro cursor success reply
  cases inner : ((separated parser).seq
      (Parser.optional (Parser.mapAt (fun index _ => index) (exactly .comma))) cursor).outcome with
  | error fault => simp [commaList, inner] at reply
  | ok found =>
    simp only [commaList, inner, Except.ok.injEq] at reply
    obtain ⟨taken, spans, balance, along⟩ := both cursor found inner
    rw [← reply]
    exact ⟨taken, spans, balance, along.sublist (List.sublist_append_left _ _)⟩

/-! ## Calls -/

/-- What a call is read from: arguments that balance between the parentheses. -/
theorem callArguments_ok (lays : Lays parser nodes) (cursor : Cursor) (success : Success α)
    (read : (callArguments parser cursor).outcome = .ok success) :
    ∃ inside, Spans cursor (.leftParen :: (inside ++ [.rightParen])) success.next ∧
      ParensBalance inside ∧ LieAlong (cursor.index + 1) inside (nodes success.value) := by
  obtain ⟨start, stop, opening, read, closing, value⟩ := between_ok _ _ cursor success read
  obtain ⟨inside, spans, balance, along⟩ := lays start stop read
  have second : start.index = cursor.index + 1 := opening.2
  refine ⟨inside, (spans_cons _ _ _ _).mpr ⟨start, opening,
    (spans_append _ _ _ _).mpr ⟨stop.next, spans, closing⟩⟩, balance, ?_⟩
  rw [← value, ← second]
  exact along

theorem lays_enclosed (enclosed : ∀ cursor success, (parser cursor).outcome = .ok success →
      ∃ inside, Spans cursor (.leftParen :: (inside ++ [.rightParen])) success.next ∧
        ParensBalance inside ∧ LieAlong (cursor.index + 1) inside (nodes success.value)) :
    Lays parser nodes := by
  intro cursor success read
  obtain ⟨inside, spans, balance, along⟩ := enclosed cursor success read
  have whole := along.append (LieAlong.skips _ [.rightParen])
  rw [List.append_nil] at whole
  exact ⟨_, spans, balance.enclose, .skip whole⟩

theorem lays_callArguments (lays : Lays parser nodes) : Lays (callArguments parser) nodes :=
  lays_enclosed (callArguments_ok lays)

/-- With recovery and without, an argument list ends with the parenthesis that closes it. -/
theorem argumentList_ok (recovery : Recovery) (trailing : TrailingComma)
    (lays : Lays parser nodes) (cursor : Cursor) (success : Success (List α))
    (read : (argumentList recovery trailing parser cursor).outcome = .ok success) :
    ∃ inside, Spans cursor (.leftParen :: (inside ++ [.rightParen])) success.next ∧
      ParensBalance inside ∧
      LieAlong (cursor.index + 1) inside (success.value.flatMap nodes) := by
  have list := callArguments_ok (lays_commaList trailing lays) cursor
  cases recovery with
  | off => exact list success read
  | on =>
    cases plain : (callArguments (commaList trailing parser) cursor).outcome with
    | ok found =>
      rw [argumentList, recoverParens_ok _ cursor found plain, plain] at read
      obtain rfl := Except.ok.inj read
      exact list found plain
    | error fault =>
      obtain ⟨empty, closed, _⟩ := recoverParens_some _ cursor fault success plain read
      obtain ⟨inside, spans, balance⟩ := skipParens_some cursor success.next closed
      rw [empty]
      exact ⟨inside, spans, balance, LieAlong.skips _ _⟩

theorem lays_argumentList (recovery : Recovery) (trailing : TrailingComma)
    (lays : Lays parser nodes) :
    Lays (argumentList recovery trailing parser) (List.flatMap nodes) :=
  lays_enclosed (argumentList_ok recovery trailing lays)

end

/-! ## Values -/

/-- The nodes of a list, one for each item, make up a single group. -/
theorem drawn_items (outline : α → Outline Nat) (items : List α) :
    ∀ group ∈ [items.map outline], group.Sublist (items.flatMap fun item => [outline item]) := by
  intro group member
  obtain rfl := List.mem_singleton.mp member
  rw [List.map_eq_flatMap]

theorem laysBehind_identifierName :
    LaysBehind identifierName (fun name => .token (.identifier name)) fun _ => [] := by
  refine (laysBehind_accept _ _ _ ?_).within _
  intro lexeme value known
  split at known
  · cases known
    exact ⟨rfl, by simp, by simp⟩
  · cases known

theorem laysBehind_keyword (name : String) :
    LaysBehind (keyword name) (fun _ => .token (.identifier name)) fun _ => [] := by
  refine laysBehind_accept _ _ _ ?_
  intro lexeme value known
  split at known
  · rename_i same
    subst same
    exact ⟨rfl, by simp, by simp⟩
  · cases known

/-- A string leads whatever node is made of it. -/
theorem lays_stringAs (outline : StringLiteral Nat → Outline Nat) (lead : String → Lead)
    (leads : ∀ raw, (lead raw).Matches (.string raw))
    (shape : ∀ raw start, outline ⟨raw, some start⟩ = .node (lead raw) (some start) []) :
    Lays stringLiteral fun node => [outline node] := by
  refine (LaysBehind.node _ outline (fun _ _ => []) (laysBehind_accept _ _ lead ?_)
    (fun start raw => shape raw start) (by simp)).within _
  intro lexeme value known
  split at known
  · cases known
    exact ⟨leads _, by simp, by simp⟩
  · cases known

theorem lays_stringLiteral : Lays stringLiteral fun node => [node.outline] :=
  lays_stringAs _ (fun raw => .token (.string raw)) (fun _ => rfl) fun _ _ => rfl

theorem lays_numberLiteral : Lays numberLiteral fun node => [node.outline] := by
  refine (LaysBehind.node _ NumberLiteral.outline (fun _ _ => [])
    (laysBehind_accept _ _ (fun raw => .token (.number raw)) ?_)
    (fun _ _ => rfl) (by simp)).within _
  intro lexeme value known
  split at known
  · cases known
    exact ⟨rfl, by simp, by simp⟩
  · cases known

theorem lays_booleanLiteral : Lays booleanLiteral fun node => [node.outline] := by
  refine LaysBehind.node _ BooleanLiteral.outline (fun _ _ => [])
    (laysBehind_accept _ _ (fun value => .token (.boolean value)) ?_)
    (fun _ _ => rfl) (by simp)
  intro lexeme value known
  split at known
  · cases known
    exact ⟨rfl, by simp, by simp⟩
  · cases known

theorem lays_identifier : Lays identifier fun node => [node.outline] :=
  laysBehind_identifierName.node _ Identifier.outline (fun _ _ => []) (fun _ _ => rfl) (by simp)

theorem lays_phrase : Lays phrase fun node => [node.outline] := by
  refine lays_choice _ ?_
  simp only [List.mem_cons, List.not_mem_nil, or_false, forall_eq_or_imp, forall_eq]
  exact ⟨lays_stringLiteral.map _ fun _ => .refl _, lays_identifier.map _ fun _ => .refl _⟩

theorem lays_element : Lays element fun node => [node.outline] := by
  refine lays_choice _ ?_
  simp only [List.mem_cons, List.not_mem_nil, or_false, forall_eq_or_imp, forall_eq]
  exact ⟨lays_stringLiteral.map _ fun _ => .refl _, lays_numberLiteral.map _ fun _ => .refl _,
    lays_booleanLiteral.map _ fun _ => .refl _, lays_identifier.map _ fun _ => .refl _⟩

/-- Brackets or braces around a list, of which the opening one leads. -/
theorem laysBehind_between {parser : Parser α} {nodes : α → List (Outline Nat)}
    (opening closing : Token) (lays : Lays parser nodes)
    (marks : ∀ mark ∈ [opening, closing], mark ≠ .leftParen ∧ mark ≠ .rightParen) :
    LaysBehind (parser.between opening closing) (fun _ => .token opening) nodes := by
  obtain ⟨noOpening, noClosing⟩ := marks opening (by simp)
  obtain ⟨endsNoOpening, endsNoClosing⟩ := marks closing (by simp)
  exact ((laysBehind_exactly opening noOpening noClosing).seqRight lays).seqLeft
    (lays_exactly closing endsNoOpening endsNoClosing)

theorem lays_arrayLiteral : Lays arrayLiteral fun node => [node.outline] := by
  have inner := laysBehind_between .leftBracket .rightBracket
    (lays_commaList (.rejected .array) lays_element) (by simp)
  exact (inner.node _ ArrayLiteral.outline (fun _ elements => [elements.map Element.outline])
    (fun _ _ => rfl) fun _ => drawn_items _).within _

theorem lays_arrayOrName : Lays arrayOrName fun node => [node.outline] :=
  (lays_arrayLiteral.map _ fun _ => .refl _).orElse (lays_identifier.map _ fun _ => .refl _)

theorem lays_equals : Lays (exactly .equals) fun _ => [] :=
  lays_exactly .equals (by simp) (by simp)

theorem lays_patterns : Lays patterns (List.map Phrase.outline) := by
  have inner := laysBehind_between .leftBracket .rightBracket
    (lays_commaList (.rejected .array) lays_phrase) (by simp)
  exact inner.lays.fewer fun patterns => drawn_items _ patterns _ (by simp)

theorem lays_globArgument :
    Lays globArgument fun argument => argument.patterns.map Phrase.outline := by
  have named := (laysBehind_identifierName.lays.seqLeft lays_equals).seq lays_patterns
  refine Lays.orElse (lays_patterns.map _ fun _ => .refl _) (named.map _ ?_)
  intro pair
  rw [GlobArgument.patterns_named]
  exact .refl _

theorem drawn_patterns (start : Nat) (arguments : List (GlobArgument Nat)) :
    ∀ group ∈ [((Glob.ofArguments (some start) arguments).includes.getD []).map Phrase.outline,
        ((Glob.ofArguments (some start) arguments).excludes.getD []).map Phrase.outline],
      group.Sublist (arguments.flatMap fun argument => argument.patterns.map Phrase.outline) := by
  have kept := Glob.ofArguments_keepsOnly (some start) arguments
  have drawn (given : Option (List (Phrase Nat)))
      (ofArgument : ∀ patterns ∈ given, ∃ argument ∈ arguments, argument.patterns = patterns) :
      ((given.getD []).map Phrase.outline).Sublist
        (arguments.flatMap fun argument => argument.patterns.map Phrase.outline) := by
    cases given with
    | none => exact List.nil_sublist _
    | some patterns =>
      obtain ⟨argument, member, rfl⟩ := ofArgument patterns rfl
      exact List.sublist_flatten_of_mem (List.mem_map_of_mem member)
  intro group member
  simp only [List.mem_cons, List.not_mem_nil, or_false] at member
  rcases member with rfl | rfl
  · exact drawn _ fun patterns found => kept patterns (.inl found)
  · exact drawn _ fun patterns found => kept patterns (.inr found)

theorem lays_glob : Lays glob fun node => [node.outline] := by
  have call := (laysBehind_exactly .glob (by simp) (by simp)).seqRight
    (lays_callArguments (lays_commaList .allowed lays_globArgument))
  refine (call.node _ Glob.outline _ ?_ drawn_patterns).within _
  intro start arguments
  rw [Glob.outline, Glob.position_ofArguments]

section

variable {value : Parser (Value Nat)} (lays : Lays value fun node => [node.outline])

include lays

theorem lays_entry : Lays (entry value) Entry.outlines :=
  ((lays_stringLiteral.seqLeft (lays_exactly .colon (by simp) (by simp))).seq lays).map _
    fun _ => .refl _

theorem lays_dict : Lays (dict value) fun node => [node.outline] := by
  have inner := laysBehind_between .leftBrace .rightBrace
    (lays_commaList .allowed (lays_entry lays)) (by simp)
  exact (inner.node _ Dict.outline (fun _ entries => [entries.flatMap Entry.outlines])
    (fun _ _ => rfl) (by simp)).within _

theorem lays_constraint : Lays (constraint value) fun node => [node.outline] :=
  ((lays_dict lays).map _ fun _ => .refl _).orElse (lays_identifier.map _ fun _ => .refl _)

omit lays in
theorem lays_noMatchError : Lays noMatchError fun node => [node.outline] :=
  ((lays_comma.seqRight (laysBehind_keyword "no_match_error").lays).seqRight
    lays_equals).seqRight lays_phrase

theorem lays_select : Lays (select value) fun node => [node.outline] := by
  have call := (laysBehind_keyword "select").seqRight
    (lays_callArguments ((lays_constraint lays).seq lays_noMatchError.optional))
  refine (call.node _ Select.outline
    (fun _ pair => [pair.1.outline :: (pair.2.map Phrase.outline).toList])
    (fun _ _ => rfl) ?_).within _
  rintro _ ⟨constraint, message⟩ group member
  obtain rfl := List.mem_singleton.mp member
  cases message <;> exact .refl _

theorem lays_valueOver : Lays (valueOver value) fun node => [node.outline] := by
  refine (lays_choice _ ?_).within _
  simp only [List.mem_cons, List.not_mem_nil, or_false, forall_eq_or_imp, forall_eq]
  refine ⟨lays_stringLiteral.map _ fun _ => ?_, lays_numberLiteral.map _ fun _ => ?_,
    lays_booleanLiteral.map _ fun _ => ?_, lays_arrayLiteral.map _ fun _ => ?_,
    lays_glob.map _ fun _ => ?_, (lays_dict lays).map _ fun _ => ?_,
    (lays_select lays).map _ fun _ => ?_, lays_identifier.map _ fun _ => ?_⟩
  · rw [Value.outline]
  · rw [Value.outline]
  · rw [Value.outline]
  · rw [Value.outline]
  · rw [Value.outline]
  · rw [Value.outline_dict]
  · rw [Value.outline_select]
  · rw [Value.outline]

end

theorem lays_valueWithin (depth : Nat) : Lays (valueWithin depth) fun node => [node.outline] := by
  induction depth with
  | zero =>
    intro cursor success read
    cases read
  | succ depth ih => exact lays_valueOver ih

theorem lays_value : Lays value fun node => [node.outline] :=
  fun cursor => lays_valueWithin (cursor.rest.length + 1) cursor

/-! ## Statements -/

theorem lays_loadedSymbol : Lays loadedSymbol fun node => [node.outline] := by
  have plain := lays_stringAs (fun node => (LoadedSymbol.plain node.value node.position).outline)
    (fun raw => .symbol (unquoted raw)) (fun _ => rfl) fun _ _ => rfl
  have renamed := (laysBehind_identifierName.seqLeft lays_equals).seq lays_stringLiteral
  exact (plain.map _ fun _ => .refl _).orElse
    (renamed.node _ LoadedSymbol.outline (fun _ _ => []) (fun _ _ => rfl) (by simp))

theorem lays_load : Lays load fun node => [node.outline] := by
  have label := lays_stringLiteral.seqLeft lays_comma
  have call := (laysBehind_exactly .load (by simp) (by simp)).seqRight
    (lays_callArguments (label.seq (lays_commaList (.rejected .load) lays_loadedSymbol)))
  refine (call.node _ Load.outline (fun _ pair => [pair.2.map LoadedSymbol.outline])
    (fun _ _ => rfl) ?_).within _
  intro _ pair group member
  exact (drawn_items _ _ group member).trans (List.sublist_append_right _ _)

theorem laysBehind_argument :
    LaysBehind argument (fun node => .token (.identifier node.name))
      fun node => [node.value.outline] :=
  ((laysBehind_identifierName.seqLeft lays_equals).seq lays_value).map _ (fun _ => rfl)
    fun _ => .refl _

theorem lays_declaration : Lays declaration fun node => [node.outline] :=
  laysBehind_argument.node _ Declaration.outline (fun _ node => [[node.value.outline]])
    (fun _ _ => rfl) (by simp)

theorem lays_ruleAttribute : Lays ruleAttribute fun node => [node.outline] :=
  laysBehind_argument.node _ Attribute.outline (fun _ node => [[node.value.outline]])
    (fun _ _ => rfl) (by simp)

theorem laysBehind_ruleName :
    LaysBehind ruleName (fun name => .token (.identifier name)) fun _ => [] := by
  refine (laysBehind_accept _ _ _ ?_).within _
  intro lexeme value known
  split at known
  · split at known
    · cases known
    · cases known
      exact ⟨rfl, by simp, by simp⟩
  · cases known

theorem lays_rule (recovery : Recovery) : Lays (rule recovery) fun node => [node.outline] := by
  have call := laysBehind_ruleName.seq
    (lays_argumentList recovery (.rejected .rule) lays_ruleAttribute)
  exact call.node _ Rule.outline (fun _ pair => [pair.2.map Attribute.outline])
    (fun _ _ => rfl) fun _ pair => drawn_items _ pair.2

/-- A call with slots shows the values that it keeps. -/
theorem lays_slots {κ : Type} [DecidableEq κ] {ν : Type → Type} (slots : Slots κ ν) (word : String)
    (recovery : Recovery) (outline : ν Nat → Outline Nat)
    (drawn : ∀ node, outline node = .node (.token (.identifier word)) (slots.position node)
      ((slots.entries node).map fun argument => [argument.value.outline])) :
    Lays (mapAt (fun start arguments => slots.ofArguments (some start) arguments)
      ((keyword word).seqRight (argumentList recovery .allowed argument)))
      fun node => [outline node] := by
  have call := (laysBehind_keyword word).seqRight
    (lays_argumentList recovery .allowed laysBehind_argument.lays)
  refine call.node _ outline
    (fun start arguments => (slots.entries (slots.ofArguments (some start) arguments)).map
      fun argument => [argument.value.outline]) ?_ ?_
  · intro start arguments
    rw [drawn, slots.position_ofArguments]
  · intro start arguments group member
    obtain ⟨entry, stored, rfl⟩ := List.mem_map.mp member
    have given := slots.entries_ofArguments_subset (some start) arguments stored
    exact List.sublist_flatten_of_mem (List.mem_map_of_mem given)

theorem lays_package (recovery : Recovery) :
    Lays (package recovery) fun node => [node.outline] :=
  lays_slots Package.slots "package" recovery Package.outline fun _ => rfl

theorem lays_packageGroup (recovery : Recovery) :
    Lays (packageGroup recovery) fun node => [node.outline] :=
  lays_slots PackageGroup.slots "package_group" recovery PackageGroup.outline fun _ => rfl

theorem lays_visibility : Lays visibility fun node => [node.outline] :=
  ((lays_comma.seqRight laysBehind_identifierName.lays).seqLeft lays_equals).seqRight
    lays_arrayOrName

theorem lays_exportsFiles : Lays exportsFiles fun node => [node.outline] := by
  have files := (lays_arrayOrName.seq lays_visibility.optional).seqLeft lays_comma.optional
  have call := (laysBehind_keyword "exports_files").seqRight (lays_callArguments files)
  refine call.node _ ExportsFiles.outline
    (fun _ pair => [pair.1.outline :: (pair.2.map ArrayOrName.outline).toList])
    (fun _ _ => rfl) ?_
  rintro _ ⟨files, visibility⟩ group member
  obtain rfl := List.mem_singleton.mp member
  cases visibility <;> exact .refl _

theorem lays_statement (recovery : Recovery) : Lays (statement recovery) Statement.outlines := by
  refine lays_choice _ ?_
  simp only [List.mem_cons, List.not_mem_nil, or_false, forall_eq_or_imp, forall_eq]
  exact ⟨lays_load.map _ fun _ => .refl _, (lays_package recovery).map _ fun _ => .refl _,
    (lays_packageGroup recovery).map _ fun _ => .refl _, lays_exportsFiles.map _ fun _ => .refl _,
    (lays_rule recovery).map _ fun _ => .refl _, lays_declaration.map _ fun _ => .refl _⟩

/-! ## Steps -/

/-- A step takes tokens along which its statement lies, if it is one. -/
theorem documentStep_lays (recovery : Recovery) (cursor : Cursor) (success : Success Step)
    (read : (documentStep recovery cursor).outcome = .ok success) :
    ∃ taken, Spans cursor taken success.next ∧
      LieAlong cursor.index taken success.value.statement.outlines := by
  have steps : Lays (step (statement recovery)) fun step => step.statement.outlines :=
    (lays_statement recovery).mapSpan _ fun _ _ _ => .refl _
  cases plain : (step (statement recovery) cursor).outcome with
  | ok found =>
    have same : documentStep recovery cursor = step (statement recovery) cursor := by
      cases recovery with
      | on => exact recoverWith_ok _ _ cursor found plain
      | off => rfl
    rw [same] at read
    obtain ⟨taken, spans, _, along⟩ := steps cursor success read
    exact ⟨taken, spans, along⟩
  | error fault =>
    cases recovery with
    | off =>
      have stopped : (documentStep .off cursor).outcome = .error fault := plain
      rw [stopped] at read
      cases read
    | on =>
      have passed : (skipped cursor).outcome = .ok success := by
        rw [documentStep, recoverWith, plain] at read
        exact read
      obtain ⟨taken, _, spans⟩ := takes_skipped cursor success passed
      obtain ⟨value, hint, next⟩ := success
      obtain ⟨_, rfl, _⟩ := (skipped_iff cursor next (skipped cursor).faults value).mp
        ⟨hint, congrArg (Reply.mk _) passed⟩
      exact ⟨taken, spans, LieAlong.skips _ _⟩

theorem repeats_lays (recovery : Recovery) (cursor next : Cursor) (faults : List Fault)
    (steps : List Step) (repeats : Repeats (documentStep recovery) cursor faults steps next) :
    ∃ taken, Spans cursor taken next ∧
      LieAlong cursor.index taken (steps.flatMap fun step => step.statement.outlines) := by
  induction repeats with
  | @done cursor => exact ⟨[], (spans_nil _ _).mpr rfl, .done⟩
  | @more cursor middle next begun later hint step others first _ ih =>
    obtain ⟨front, frontSpans, frontAlong⟩ :=
      documentStep_lays recovery cursor ⟨step, hint, middle⟩ (by rw [first])
    obtain ⟨back, backSpans, backAlong⟩ := ih
    have behind : middle.index = cursor.index + front.length := frontSpans.2
    rw [behind] at backAlong
    exact ⟨front ++ back, (spans_append _ _ _ _).mpr ⟨middle, frontSpans, backSpans⟩,
      frontAlong.append backAlong⟩

end Parser

end BuildLang
