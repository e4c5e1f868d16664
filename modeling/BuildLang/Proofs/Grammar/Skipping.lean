import BuildLang.Proofs.Grammar.Reads

/-!
# Skipping argument lists

An argument list that cannot be read is skipped up to the parenthesis that closes
it.  What is skipped is told by counting parentheses alone, and never goes without
a fault.
-/

set_option autoImplicit false

namespace BuildLang.Parser

variable {α : Type}

/-- Parentheses that match: none closes before it was opened, and each that was
opened is closed. -/
structure ParensBalance (tokens : List Token) : Prop where
  opened : ∀ front back, tokens = front ++ back →
    front.count .rightParen ≤ front.count .leftParen
  closed : tokens.count .leftParen = tokens.count .rightParen

theorem ParensBalance.append {front back : List Token} (first : ParensBalance front)
    (second : ParensBalance back) : ParensBalance (front ++ back) := by
  constructor
  · intro left right split
    rcases List.append_eq_append_iff.mp split with ⟨middle, rfl, rest⟩ | ⟨middle, whole, _⟩
    · have inner := second.opened middle right rest
      have outer := first.closed
      rw [List.count_append, List.count_append]
      omega
    · exact first.opened left middle whole
  · rw [List.count_append, List.count_append, first.closed, second.closed]

theorem ParensBalance.nil : ParensBalance [] :=
  ⟨by simp, rfl⟩

theorem ParensBalance.single {lexeme : Token} (noOpening : lexeme ≠ .leftParen)
    (noClosing : lexeme ≠ .rightParen) : ParensBalance [lexeme] := by
  constructor
  · intro front back split
    have bound : front.count .rightParen ≤ [lexeme].count .rightParen := by
      rw [split, List.count_append]
      exact Nat.le_add_right _ _
    rw [List.count_singleton, if_neg (by simpa using noClosing)] at bound
    omega
  · simp [noOpening, noClosing]

theorem ParensBalance.enclose {inside : List Token} (balance : ParensBalance inside) :
    ParensBalance (.leftParen :: (inside ++ [.rightParen])) := by
  have closed := balance.closed
  constructor
  · intro front back split
    cases front with
    | nil => exact Nat.le_refl _
    | cons first front =>
      rw [List.cons_append] at split
      obtain ⟨rfl, others⟩ := List.cons.inj split
      have opened : front.count .rightParen ≤ front.count .leftParen + 1 := by
        rcases List.append_eq_append_iff.mp others with ⟨middle, rfl, rest⟩ | ⟨middle, whole, _⟩
        · have last : middle.count .rightParen ≤ [Token.rightParen].count .rightParen := by
            rw [rest, List.count_append]
            exact Nat.le_add_right _ _
          rw [List.count_singleton_self] at last
          rw [List.count_append, List.count_append]
          omega
        · exact Nat.le_succ_of_le (balance.opened front middle whole)
      simpa using opened
  · simp [closed]

/-- Balanced tokens do not go on behind a parenthesis that closes none of theirs. -/
theorem ParensBalance.not_closed {inside further : List Token} (balance : ParensBalance inside) :
    ¬ ParensBalance (inside ++ .rightParen :: further) := by
  intro longer
  have early := longer.opened (inside ++ [.rightParen]) further (by simp)
  have closed := balance.closed
  simp only [List.count_append, List.count_singleton_self] at early
  have none : [Token.rightParen].count .leftParen = 0 := rfl
  omega

/-- Only one parenthesis closes a list. -/
theorem ParensBalance.unique {inside other rest more : List Token}
    (balance : ParensBalance inside) (also : ParensBalance other)
    (same : inside ++ .rightParen :: rest = other ++ .rightParen :: more) :
    inside = other ∧ rest = more := by
  rcases List.append_eq_append_iff.mp same with ⟨middle, rfl, split⟩ | ⟨middle, rfl, split⟩
  · cases middle with
    | nil => exact ⟨(List.append_nil _).symm, (List.cons.inj split).2⟩
    | cons lexeme further =>
      obtain ⟨rfl, _⟩ := List.cons.inj split
      exact absurd also balance.not_closed
  · cases middle with
    | nil => exact ⟨List.append_nil _, (List.cons.inj split).2.symm⟩
    | cons lexeme further =>
      obtain ⟨rfl, _⟩ := List.cons.inj split
      exact absurd balance also.not_closed

theorem Balance.step_parens (balance : Balance) (index : Nat) (lexeme : Token) :
    (balance.step index lexeme).parens = balance.parens := by
  have note (other : Balance) (found : Option Token) :
      (other.note index found).parens = other.parens := by
    unfold Balance.note
    split <;> rfl
  unfold Balance.step
  split
  · rfl
  · dsimp only
    split
    · exact note _ _
    · rfl
  · rfl
  · dsimp only
    split
    · exact note _ _
    · rfl
  · rfl

/-- Tokens in front of which `depth` parentheses are open and behind which one still
is: the outermost, which none of them closes. -/
structure StaysOpen (depth : Nat) (tokens : List Token) : Prop where
  opened : ∀ front back, tokens = front ++ back →
    front.count .rightParen < depth + front.count .leftParen
  closed : depth + tokens.count .leftParen = tokens.count .rightParen + 1

theorem StaysOpen.nil : StaysOpen 1 [] := by
  refine ⟨?_, rfl⟩
  intro front back split
  obtain ⟨rfl, rfl⟩ := List.append_eq_nil_iff.mp split.symm
  exact Nat.one_pos

theorem StaysOpen.cons {depth inner : Nat} {tokens : List Token} (lexeme : Token)
    (isOpen : 0 < depth) (stays : StaysOpen inner tokens)
    (shift : inner + [lexeme].count .rightParen = depth + [lexeme].count .leftParen) :
    StaysOpen depth (lexeme :: tokens) := by
  have both (other : Token) (later : List Token) :
      (lexeme :: later).count other = [lexeme].count other + later.count other := by
    rw [← List.singleton_append, List.count_append]
  constructor
  · intro front back split
    cases front with
    | nil => exact isOpen
    | cons first front =>
      obtain ⟨rfl, rest⟩ := List.cons.inj split
      have later := stays.opened front back rest
      rw [both .leftParen front, both .rightParen front]
      omega
  · have closed := stays.closed
    rw [both .leftParen tokens, both .rightParen tokens]
    omega

/-- What the tokens behind the first one leave open. -/
theorem StaysOpen.tail {depth inner : Nat} {lexeme : Token} {tokens : List Token}
    (stays : StaysOpen depth (lexeme :: tokens))
    (shift : inner + [lexeme].count .rightParen = depth + [lexeme].count .leftParen) :
    StaysOpen inner tokens := by
  have both (other : Token) (later : List Token) :
      (lexeme :: later).count other = [lexeme].count other + later.count other := by
    rw [← List.singleton_append, List.count_append]
  constructor
  · intro front back split
    have later := stays.opened (lexeme :: front) back (by rw [split, List.cons_append])
    rw [both .leftParen front, both .rightParen front] at later
    omega
  · have closed := stays.closed
    rw [both .leftParen tokens, both .rightParen tokens] at closed
    omega

theorem ParensBalance.staysOpen {inside : List Token} (balance : ParensBalance inside) :
    StaysOpen 1 inside := by
  constructor
  · intro front back split
    have opened := balance.opened front back split
    omega
  · rw [balance.closed, Nat.add_comm]

/-- What lies before the parenthesis that closes the outermost of those that are
open never closes that one itself. -/
theorem closingParen_some (balance : Balance) (index : Nat) (tokens : List Token)
    (noted : Option Fault) (stop : Cursor)
    (found : closingParen balance index tokens = (noted, some stop))
    (isOpen : 0 < balance.parens) :
    ∃ inside, tokens = inside ++ .rightParen :: stop.rest ∧
      stop.index = index + inside.length + 1 ∧ StaysOpen balance.parens inside := by
  fun_induction closingParen balance index tokens with
  | case1 balance index => cases found
  | case2 balance index rest ih =>
    obtain ⟨inside, rfl, stopped, stays⟩ := ih found (Nat.succ_pos _)
    refine ⟨.leftParen :: inside, rfl, ?_, stays.cons .leftParen isOpen rfl⟩
    rw [stopped, List.length_cons]
    omega
  | case3 balance index rest last =>
    cases found
    exact ⟨[], rfl, rfl, by rw [last]; exact .nil⟩
  | case4 balance index rest more ih =>
    have stillOpen : 0 < balance.parens - 1 := by omega
    obtain ⟨inside, rfl, stopped, stays⟩ := ih found stillOpen
    refine ⟨.rightParen :: inside, rfl, ?_, stays.cons .rightParen isOpen ?_⟩
    · rw [stopped, List.length_cons]
      omega
    · exact Nat.sub_add_cancel isOpen
  | case5 balance index lexeme rest noOpening noClosing ih =>
    have same := Balance.step_parens balance index lexeme
    obtain ⟨inside, rfl, stopped, stays⟩ := ih found (by rw [same]; exact isOpen)
    refine ⟨lexeme :: inside, rfl, ?_, stays.cons lexeme isOpen ?_⟩
    · rw [stopped, List.length_cons]
      omega
    · have one : lexeme ≠ .leftParen := noOpening
      have other : lexeme ≠ .rightParen := noClosing
      simp [same, one, other]

/-- The parenthesis that closes the outermost of those that are open is found, whatever
stands behind it. -/
theorem closingParen_found (inside : List Token) (balance : Balance) (index : Nat)
    (rest : List Token) (stays : StaysOpen balance.parens inside) :
    (closingParen balance index (inside ++ .rightParen :: rest)).2 =
      some ⟨index + inside.length + 1, rest⟩ := by
  induction inside generalizing balance index with
  | nil =>
    have last : balance.parens = 1 := by
      have closed := stays.closed
      simpa using closed
    simp [closingParen, last]
  | cons lexeme others ih =>
    have length : index + (lexeme :: others).length + 1 = index + 1 + others.length + 1 := by
      rw [List.length_cons]
      omega
    rw [List.cons_append, length]
    by_cases opening : lexeme = .leftParen
    · subst opening
      have deeper : StaysOpen (balance.parens + 1) others := stays.tail rfl
      rw [closingParen]
      exact ih { balance with parens := balance.parens + 1 } (index + 1) deeper
    · by_cases closing : lexeme = .rightParen
      · subst closing
        have more : 1 < balance.parens := by
          have opened := stays.opened [.rightParen] others rfl
          simpa using opened
        have outer : StaysOpen (balance.parens - 1) others :=
          stays.tail (Nat.sub_add_cancel (Nat.le_of_lt more))
        rw [closingParen, if_neg (by omega)]
        exact ih { balance with parens := balance.parens - 1 } (index + 1) outer
      · have same : (balance.step index lexeme).parens = balance.parens :=
          balance.step_parens index lexeme
        have level : StaysOpen (balance.step index lexeme).parens others := by
          rw [same]
          exact stays.tail (by simp [opening, closing])
        rw [closingParen]
        · exact ih _ (index + 1) level
        · exact opening
        · exact closing

/-- A list is skipped up to the parenthesis that closes it. -/
theorem skipParens_some (cursor next : Cursor) (found : (skipParens cursor).2 = some next) :
    ∃ inside, Spans cursor (.leftParen :: (inside ++ [.rightParen])) next ∧
      ParensBalance inside := by
  unfold skipParens at found
  split at found
  · rename_i rest begins
    obtain ⟨inside, rfl, stopped, stays⟩ :=
      closingParen_some _ _ rest _ next (Prod.ext rfl found) Nat.one_pos
    have outer : 1 + inside.count .leftParen = inside.count .rightParen + 1 := stays.closed
    refine ⟨inside, ⟨?_, ?_⟩, ?_, by omega⟩
    · simp [begins]
    · rw [stopped]
      simp only [List.length_cons, List.length_append, List.length_nil]
      omega
    · intro front back split
      have inner : front.count .rightParen < 1 + front.count .leftParen :=
        stays.opened front back split
      omega
  · cases found

/-- Every list that is closed can be skipped. -/
theorem skipParens_found (cursor next : Cursor) (inside : List Token)
    (spans : Spans cursor (.leftParen :: (inside ++ [.rightParen])) next)
    (balance : ParensBalance inside) : (skipParens cursor).2 = some next := by
  have begins : cursor.rest = .leftParen :: (inside ++ .rightParen :: next.rest) := by
    simpa using spans.1
  have stop : next = ⟨cursor.index + 1 + inside.length + 1, next.rest⟩ := by
    refine spans.unique ⟨spans.1, ?_⟩
    simp only [List.length_cons, List.length_append, List.length_nil]
    omega
  simp only [skipParens, begins]
  rw [stop]
  exact closingParen_found inside ⟨1, 0, 0, none⟩ (cursor.index + 1) next.rest balance.staysOpen

/-- A list that is closed is read with recovery, if only as an empty one. -/
theorem recoverParens_reads (list : Parser (List α)) (cursor next : Cursor)
    (closed : (skipParens cursor).2 = some next) :
    ∃ success, (recoverParens list cursor).outcome = .ok success := by
  cases plain : (list cursor).outcome with
  | ok success => exact ⟨success, by simp only [recoverParens, plain]⟩
  | error fault =>
    simp only [recoverParens, plain, closed]
    split <;> exact ⟨_, rfl⟩

/-- A list that was skipped is empty, and its fault is told. -/
theorem recoverParens_some (list : Parser (List α)) (cursor : Cursor) (fault : Fault)
    (success : Success (List α)) (failed : (list cursor).outcome = .error fault)
    (read : (recoverParens list cursor).outcome = .ok success) :
    success.value = [] ∧ (skipParens cursor).2 = some success.next ∧
      (recoverParens list cursor).faults ≠ [] := by
  cases closed : (skipParens cursor).2 with
  | none => simp [recoverParens, failed, closed] at read
  | some next =>
    simp only [recoverParens, failed, closed] at read ⊢
    cases last : ((list cursor).faults ++ (skipParens cursor).1.toList).getLast? with
    | none =>
      simp only [last, Except.ok.injEq] at read ⊢
      rw [← read]
      exact ⟨rfl, rfl, by simp⟩
    | some found =>
      have some : (list cursor).faults ++ (skipParens cursor).1.toList ≠ [] := by
        intro none
        rw [none] at last
        cases last
      simp only [last, Except.ok.injEq] at read ⊢
      rw [← read]
      refine ⟨rfl, rfl, ?_⟩
      split
      · simp
      · exact some

end BuildLang.Parser
