import BuildLang.Proofs.Grammar.Advance
import Mathlib.Data.List.Forall2

/-!
# Bounds on readings

Repetitions and nested values are read under a bound that the number of tokens
gives.  Since every item and every level of nesting takes a token, any larger bound
gives the same reply: reading ends where the tokens say so.
-/

set_option autoImplicit false

namespace BuildLang.Parser

variable {α β : Type}

/-! ## Repetitions -/

theorem manyFrom_bound (item : Parser α) (takes : Takes 1 item) (fuel other : Nat)
    (hint : Option Fault) (cursor : Cursor) (enough : cursor.rest.length < fuel)
    (enoughToo : cursor.rest.length < other) :
    manyFrom item fuel hint cursor = manyFrom item other hint cursor := by
  induction fuel generalizing other hint cursor with
  | zero => exact absurd enough (Nat.not_lt_zero _)
  | succ fuel ih =>
    cases other with
    | zero => exact absurd enoughToo (Nat.not_lt_zero _)
    | succ other =>
      cases first : (item cursor).outcome with
      | error fault => simp only [manyFrom, first]
      | ok success =>
        have shorter := takes.rest_length cursor success first
        have rest := ih other (Fault.latest hint success.hint) success.next (by omega) (by omega)
        simp only [manyFrom, first, rest]

theorem many_bound (item : Parser α) (takes : Takes 1 item) (fuel : Nat) (cursor : Cursor)
    (enough : cursor.rest.length < fuel) : manyFrom item fuel none cursor = many item cursor :=
  manyFrom_bound item takes fuel _ none cursor enough (Nat.lt_succ_self _)

theorem commaItems_bound (item : Parser α) (takes : Takes 0 item) (fuel other : Nat)
    (hint : Option Fault) (cursor : Cursor) (enough : cursor.rest.length < fuel)
    (enoughToo : cursor.rest.length < other) :
    commaItems item fuel hint cursor = commaItems item other hint cursor := by
  induction fuel generalizing other hint cursor with
  | zero => exact absurd enough (Nat.not_lt_zero _)
  | succ fuel ih =>
    cases other with
    | zero => exact absurd enoughToo (Nat.not_lt_zero _)
    | succ other =>
      unfold commaItems
      split
      · rename_i rest found
        rw [found, List.length_cons] at enough enoughToo
        cases first : (item ⟨cursor.index + 1, rest⟩).outcome with
        | error fault => simp only [first]
        | ok success =>
          have shorter : success.next.rest.length + 0 ≤ rest.length :=
            takes.rest_length _ success first
          have later := ih other (Fault.latest hint success.hint) success.next (by omega)
            (by omega)
          simp only [first, later]
      · rfl

/-! ## Parsers that agree -/

/-- The parsers cannot be told apart where fewer than `bound` tokens are left. -/
def AgreeBelow (bound : Nat) (first second : Parser α) : Prop :=
  ∀ cursor : Cursor, cursor.rest.length < bound → first cursor = second cursor

namespace AgreeBelow

variable {bound more least : Nat} {first second : Parser α}

theorem refl (parser : Parser α) : AgreeBelow bound parser parser :=
  fun _ _ => rfl

theorem weaken (agree : AgreeBelow more first second) (less : bound ≤ more) :
    AgreeBelow bound first second :=
  fun cursor few => agree cursor (Nat.lt_of_lt_of_le few less)

theorem mapSpan (f : Cursor → Cursor → α → β) (agree : AgreeBelow bound first second) :
    AgreeBelow bound (first.mapSpan f) (second.mapSpan f) := by
  intro cursor few
  simp only [Parser.mapSpan, agree cursor few]

theorem map (f : α → β) (agree : AgreeBelow bound first second) :
    AgreeBelow bound (first.map f) (second.map f) :=
  agree.mapSpan _

theorem mapAt (f : Nat → α → β) (agree : AgreeBelow bound first second) :
    AgreeBelow bound (first.mapAt f) (second.mapAt f) :=
  agree.mapSpan _

theorem within (part : Part) (agree : AgreeBelow bound first second) :
    AgreeBelow bound (first.within part) (second.within part) := by
  intro cursor few
  simp only [Parser.within, agree cursor few]

/-- What stands in front takes tokens away from what is compared behind it. -/
theorem seq {left right : Parser β} (front : AgreeBelow (bound + least) first second)
    (takes : Takes least first) (behind : AgreeBelow bound left right) :
    AgreeBelow (bound + least) (first.seq left) (second.seq right) := by
  intro cursor few
  have same := front cursor few
  cases begun : (first cursor).outcome with
  | error fault =>
    have also : (second cursor).outcome = .error fault := by rw [← same, begun]
    simp only [Parser.seq, also, same]
  | ok success =>
    have also : (second cursor).outcome = .ok success := by rw [← same, begun]
    have shorter := takes.rest_length cursor success begun
    have rest := behind success.next (by omega)
    simp only [Parser.seq, also, same, rest]

theorem behind {front : Parser β} (takes : Takes least front)
    (agree : AgreeBelow bound first second) :
    AgreeBelow (bound + least) (front.seqRight first) (front.seqRight second) :=
  ((refl front).seq takes agree).map _

theorem between (opening closing : Token) (agree : AgreeBelow bound first second)
    (takes : Takes least first) :
    AgreeBelow (bound + 1) (first.between opening closing) (second.between opening closing) := by
  have front := agree.behind (takes_exactly opening)
  have taken := ((takes_exactly opening).seqRight takes).weaken (Nat.le_add_right 1 least)
  exact (front.seq taken (refl (exactly closing))).map _

theorem orElse {third fourth : Parser α} (agree : AgreeBelow bound first second)
    (other : AgreeBelow bound third fourth) :
    AgreeBelow bound (first.orElse third) (second.orElse fourth) := by
  intro cursor few
  simp only [Parser.orElse, agree cursor few, other cursor few]

theorem firstOf (seen : Option Fault) (alternatives others : List (Parser α))
    (each : List.Forall₂ (AgreeBelow bound) alternatives others) :
    AgreeBelow bound (Parser.firstOf seen alternatives) (Parser.firstOf seen others) := by
  intro cursor few
  induction each generalizing seen with
  | nil => rfl
  | cons same _ ih => simp only [Parser.firstOf, same cursor few, ih]

/-- A comma stands in front of each further item. -/
theorem commaItems (agree : AgreeBelow bound first second) (takes : Takes 0 first) (fuel : Nat)
    (hint : Option Fault) :
    AgreeBelow (bound + 1) (commaItems first fuel hint) (commaItems second fuel hint) := by
  intro cursor few
  induction fuel generalizing hint cursor with
  | zero => rfl
  | succ fuel ih =>
    unfold Parser.commaItems
    split
    · rename_i rest found
      rw [found, List.length_cons] at few
      have same := agree ⟨cursor.index + 1, rest⟩ (Nat.lt_of_succ_lt_succ few)
      cases read : (second ⟨cursor.index + 1, rest⟩).outcome with
      | error fault => simp only [same, read]
      | ok success =>
        have shorter : success.next.rest.length + 0 ≤ rest.length :=
          takes.rest_length _ success (by rw [same, read])
        have later := ih (Fault.latest hint success.hint) success.next (by omega)
        simp only [same, read, later]
    · rfl

theorem separated (agree : AgreeBelow bound first second) (takes : Takes 0 first) :
    AgreeBelow bound (separated first) (separated second) := by
  intro cursor few
  have same := agree cursor few
  cases read : (second cursor).outcome with
  | error fault => simp only [Parser.separated, same, read]
  | ok success =>
    have shorter := takes.rest_length cursor success (by rw [same, read])
    have later := (agree.commaItems takes cursor.rest.length success.hint) success.next
      (by omega)
    simp only [Parser.separated, same, read, later]

theorem commaList (trailing : TrailingComma) (agree : AgreeBelow bound first second)
    (takes : Takes 0 first) :
    AgreeBelow bound (commaList trailing first) (commaList trailing second) := by
  intro cursor few
  have items : AgreeBelow (bound + 0) (Parser.separated first) (Parser.separated second) :=
    agree.separated takes
  have both := items.seq (takes_separated takes)
    (refl (Parser.optional (Parser.mapAt (fun index _ => index) (exactly .comma)))) cursor few
  simp only [Parser.commaList, both]

end AgreeBelow

/-! ## Nested values -/

section

variable {bound : Nat} {first second : Parser (Value Nat)}

theorem dict_agree (agree : AgreeBelow bound first second) (takes : Takes 0 first) :
    AgreeBelow (bound + 1) (dict first) (dict second) := by
  have key := takes_stringLiteral.seqLeft (takes_exactly .colon)
  have entries : AgreeBelow bound (entry first) (entry second) :=
    ((((AgreeBelow.refl _).seq key agree).map _).weaken (by omega))
  have items := takes_entry takes
  exact (((entries.commaList .allowed (items.weaken (Nat.zero_le 1))).between _ _
    (takes_commaList _ items)).mapAt _).within _

theorem select_agree (agree : AgreeBelow bound first second) (takes : Takes 0 first) :
    AgreeBelow (bound + 1) (select first) (select second) := by
  have choices : AgreeBelow (bound + 1) (constraint first) (constraint second) :=
    ((dict_agree agree takes).map _).orElse (.refl _)
  have taken := takes_constraint takes
  have inside := choices.seq taken (.refl (Parser.optional noMatchError))
  have call := inside.between .leftParen .rightParen (taken.seq takes_noMatchError.optional)
  exact (((call.behind (takes_keyword "select")).mapAt _).within _).weaken (by omega)

theorem valueOver_agree (agree : AgreeBelow bound first second) (takes : Takes 0 first) :
    AgreeBelow (bound + 1) (valueOver first) (valueOver second) := by
  refine (AgreeBelow.firstOf none _ _ ?_).within _
  refine .cons (.refl _) (.cons (.refl _) (.cons (.refl _) (.cons (.refl _) (.cons (.refl _) ?_))))
  exact .cons ((dict_agree agree takes).map _)
    (.cons ((select_agree agree takes).map _) (.cons (.refl _) .nil))

end

theorem valueWithin_agree (depth other : Nat) :
    AgreeBelow (min depth other) (valueWithin depth) (valueWithin other) := by
  induction depth generalizing other with
  | zero =>
    intro cursor few
    rw [Nat.zero_min] at few
    exact absurd few (Nat.not_lt_zero _)
  | succ depth ih =>
    cases other with
    | zero =>
      intro cursor few
      exact absurd few (Nat.not_lt_zero _)
    | succ other =>
      rw [Nat.succ_min_succ]
      exact valueOver_agree (ih other) ((takes_valueWithin depth).weaken (Nat.zero_le 1))

/-- A value is read to any depth. -/
theorem valueWithin_bound (depth : Nat) (cursor : Cursor) (enough : cursor.rest.length < depth) :
    valueWithin depth cursor = value cursor := by
  refine valueWithin_agree depth (cursor.rest.length + 1) cursor ?_
  omega

/-- At this cursor no larger bound than `fuel` changes what is read: not on the steps
of a document, on the tokens skipped, on the items of a list or on the nesting of
values. -/
structure Unbounded (cursor : Cursor) (fuel : Nat) : Prop where
  steps : ∀ recovery,
    manyFrom (documentStep recovery) fuel none cursor = many (documentStep recovery) cursor
  skipping :
    manyFrom (butNot statementStart) fuel none cursor = many (butNot statementStart) cursor
  items : ∀ (α : Type) (item : Parser α), Takes 0 item → ∀ hint other, fuel ≤ other →
    commaItems item other hint cursor = commaItems item fuel hint cursor
  values : valueWithin fuel cursor = value cursor

/-- The number of tokens left is bound enough. -/
theorem unbounded (cursor : Cursor) (fuel : Nat) (enough : cursor.rest.length < fuel) :
    Unbounded cursor fuel where
  steps recovery := many_bound _ (takes_documentStep recovery) fuel cursor enough
  skipping := many_bound _ (takes_butNot statementStart) fuel cursor enough
  items _ item takes hint other more :=
    commaItems_bound item takes other fuel hint cursor (Nat.lt_of_lt_of_le enough more) enough
  values := valueWithin_bound fuel cursor enough

end BuildLang.Parser
