import BuildLang.Proofs.Grammar.Advance
import BuildLang.Proofs.Recovery

/-!
# Steps of a document

What a step of a document is read from when no statement is there as it should be:
a call whose argument list was skipped, or tokens up to the next that could begin a
statement.
-/

set_option autoImplicit false

namespace BuildLang

/-- A statement could begin at the front of the tokens. -/
def StatementStarts : List Token → Prop
  | .load :: _ => True
  | .identifier _ :: .leftParen :: _ => True
  | .identifier _ :: .equals :: _ => True
  | _ => False

/-- None of the tokens in front of `rest` could begin a statement, and there the
input ends or a statement could begin. -/
inductive SkipsTo (rest : List Token) : List Token → Prop where
  | stop (ends : rest = [] ∨ StatementStarts rest) : SkipsTo rest []
  | pass {lexeme : Token} {others : List Token}
      (noStart : ¬ StatementStarts (lexeme :: others ++ rest)) (later : SkipsTo rest others) :
      SkipsTo rest (lexeme :: others)

theorem SkipsTo.ends {rest run : List Token} (skips : SkipsTo rest run) :
    rest = [] ∨ StatementStarts rest := by
  induction skips with
  | stop ends => exact ends
  | pass _ _ ih => exact ih

/-- A call of which no argument is kept. -/
def Statement.emptied (name : String) (start : Nat) : Statement Nat :=
  if name = "package" then .package (Package.ofArguments (some start) [])
  else if name = "package_group" then .packageGroup (PackageGroup.ofArguments (some start) [])
  else .rule ⟨name, [], some start⟩

/-- Calls of this name get along without their arguments. -/
def SkipsArguments (name : String) : Prop :=
  name = "package" ∨ name = "package_group" ∨ name ∉ callNames

theorem noPackage_of_free {name : String} (free : name ∉ callNames) :
    ¬ (name = "package" ∨ name = "package_group") := by
  rintro (rfl | rfl)
  · exact free (by decide)
  · exact free (by decide)

namespace Parser

/-! ## Skipped input -/

theorem statementStart_starts (cursor : Cursor) (success : Success Unit)
    (read : (statementStart cursor).outcome = .ok success) : StatementStarts cursor.rest := by
  obtain ⟨inner, word | pair, _⟩ := orElse_ok _ _ cursor success read
  · rw [(exactly_ok .load cursor inner word).1]
    trivial
  · obtain ⟨both, pair, _⟩ := mapSpan_ok _ cursor inner pair
    obtain ⟨name, sign, first, second, _⟩ := seq_ok _ cursor both pair
    obtain ⟨bare, first, same, _⟩ := within_ok _ cursor name first
    obtain ⟨lexeme, spans, known⟩ := accept_ok _ _ cursor bare first
    rw [spans.1, same]
    split at known
    · obtain ⟨either, paren | equals, _⟩ := orElse_ok _ _ name.next sign second
      · rw [(exactly_ok .leftParen name.next either paren).1]
        trivial
      · rw [(exactly_ok .equals name.next either equals).1]
        trivial
    · cases known

theorem starts_statementStart (cursor : Cursor) (starts : StatementStarts cursor.rest) :
    ∃ success, (statementStart cursor).outcome = .ok success := by
  obtain ⟨index, tokens⟩ := cursor
  match tokens, starts with
  | .load :: rest, _ => exact ⟨_, rfl⟩
  | .identifier name :: .leftParen :: rest, _ => exact ⟨_, rfl⟩
  | .identifier name :: .equals :: rest, _ => exact ⟨_, rfl⟩

theorem statementStart_error (cursor : Cursor) :
    (∃ fault, (statementStart cursor).outcome = .error fault) ↔ ¬ StatementStarts cursor.rest := by
  constructor
  · rintro ⟨fault, failed⟩ starts
    obtain ⟨success, read⟩ := starts_statementStart cursor starts
    rw [read] at failed
    cases failed
  · intro noStart
    cases result : (statementStart cursor).outcome with
    | error fault => exact ⟨fault, rfl⟩
    | ok success => exact absurd (statementStart_starts cursor success result) noStart

theorem butNot_statementStart (cursor : Cursor) (lexeme : Token) (rest : List Token)
    (found : cursor.rest = lexeme :: rest) (noStart : ¬ StatementStarts cursor.rest) :
    butNot statementStart cursor = .success lexeme ⟨cursor.index + 1, rest⟩ := by
  obtain ⟨fault, failed⟩ := (statementStart_error cursor).mpr noStart
  simp only [butNot, failed, found]

/-- Nothing more is skipped exactly where the input ends or a statement could begin. -/
theorem butNot_stops (cursor : Cursor) :
    (∃ fault, (butNot statementStart cursor).outcome = .error fault) ↔
      cursor.rest = [] ∨ StatementStarts cursor.rest := by
  by_cases starts : StatementStarts cursor.rest
  · obtain ⟨success, read⟩ := starts_statementStart cursor starts
    simp [butNot, read, Reply.failure, starts]
  · cases found : cursor.rest with
    | nil =>
      obtain ⟨fault, failed⟩ := (statementStart_error cursor).mpr starts
      simp [butNot, failed, found, Reply.failure]
    | cons lexeme rest =>
      rw [butNot_statementStart cursor lexeme rest found starts]
      simpa [Reply.success, found] using starts

theorem repeats_skipsTo (cursor next : Cursor) (faults : List Fault) (run : List Token)
    (repeats : Repeats (butNot statementStart) cursor faults run next)
    (ends : next.rest = [] ∨ StatementStarts next.rest) :
    faults = [] ∧ Spans cursor run next ∧ SkipsTo next.rest run := by
  induction repeats with
  | @done cursor => exact ⟨rfl, (spans_nil _ _).mpr rfl, .stop ends⟩
  | @more cursor middle next begun later hint value others first _ ih =>
    obtain ⟨rfl, laterSpans, skips⟩ := ih ends
    obtain ⟨spans, failed⟩ := butNot_ok statementStart cursor ⟨value, hint, middle⟩ (by rw [first])
    have noStart := (statementStart_error cursor).mp failed
    obtain ⟨rest, found, same⟩ := (spans_singleton _ _ _).mp spans
    rw [butNot_statementStart cursor value rest found noStart] at first
    cases first
    rw [spans.1, laterSpans.1] at noStart
    exact ⟨rfl, (spans_cons _ _ _ _).mpr ⟨_, spans, laterSpans⟩, .pass noStart skips⟩

theorem skipsTo_repeats (cursor next : Cursor) (run : List Token) (spans : Spans cursor run next)
    (skips : SkipsTo next.rest run) : Repeats (butNot statementStart) cursor [] run next := by
  induction run generalizing cursor with
  | nil =>
    obtain rfl := (spans_nil cursor next).mp spans
    exact .done
  | cons lexeme others ih =>
    cases skips with
    | pass noStart later =>
      obtain ⟨middle, first, back⟩ := (spans_cons cursor next lexeme others).mp spans
      obtain ⟨rest, found, rfl⟩ := (spans_singleton _ _ _).mp first
      rw [← spans.1] at noStart
      exact .more (butNot_statementStart cursor lexeme rest found noStart) (ih _ back later)

theorem many_skips (cursor next : Cursor) (faults : List Fault) (run : List Token) :
    (∃ last, many (butNot statementStart) cursor = ⟨faults, .ok ⟨run, last, next⟩⟩) ↔
      faults = [] ∧ Spans cursor run next ∧ SkipsTo next.rest run := by
  rw [many_iff (takes_butNot statementStart), butNot_stops]
  constructor
  · rintro ⟨repeats, ends⟩
    exact repeats_skipsTo cursor next faults run repeats ends
  · rintro ⟨rfl, spans, skips⟩
    exact ⟨skipsTo_repeats cursor next run spans skips, skips.ends⟩

/-- Skipping takes one token, and all behind it that could not begin a statement. -/
theorem skipped_iff (cursor next : Cursor) (faults : List Fault) (value : Step) :
    (∃ hint, skipped cursor = ⟨faults, .ok ⟨value, hint, next⟩⟩) ↔
      faults = [] ∧ value = ⟨cursor.index, next.index, .skipped⟩ ∧
        ∃ lexeme run, Spans cursor (lexeme :: run) next ∧ SkipsTo next.rest run := by
  cases found : cursor.rest with
  | nil =>
    constructor
    · rintro ⟨hint, reply⟩
      simp [skipped, step, mapSpan, Parser.map, Parser.seq, anyToken, accept, found,
        Reply.failure] at reply
    · rintro ⟨_, _, lexeme, run, spans, _⟩
      have some := spans.1
      simp [found] at some
  | cons lexeme rest =>
    have first := (spans_singleton cursor ⟨cursor.index + 1, rest⟩ lexeme).mpr ⟨rest, found, rfl⟩
    have skips (stop : Cursor) (told : List Fault) (run : List Token) :=
      many_skips ⟨cursor.index + 1, rest⟩ stop told run
    obtain ⟨⟨run, last, stop⟩, all⟩ := manyFrom_ok (butNot statementStart) (rest.length + 1) none
      ⟨cursor.index + 1, rest⟩
    have whole : many (butNot statementStart) ⟨cursor.index + 1, rest⟩ =
        ⟨_, .ok ⟨run, last, stop⟩⟩ := congrArg (Reply.mk _) all
    obtain ⟨clean, back, stops⟩ := (skips stop _ run).mp ⟨last, whole⟩
    rw [clean] at whole
    have reply : skipped cursor =
        ⟨[], .ok ⟨⟨cursor.index, stop.index, .skipped⟩, Fault.latest none last, stop⟩⟩ := by
      simp [skipped, step, mapSpan, Parser.map, Parser.seq, anyToken, accept, found,
        Reply.success, whole]
    rw [reply]
    constructor
    · rintro ⟨hint, same⟩
      cases same
      exact ⟨rfl, rfl, lexeme, run, (spans_cons _ _ _ _).mpr ⟨_, first, back⟩, stops⟩
    · rintro ⟨rfl, rfl, other, others, spans, skipped⟩
      obtain ⟨middle, one, more⟩ := (spans_cons cursor next other others).mp spans
      obtain ⟨_, again, rfl⟩ := (spans_singleton _ _ _).mp one
      rw [found] at again
      cases again
      obtain ⟨_, reread⟩ := (skips next [] others).mpr ⟨rfl, more, skipped⟩
      rw [whole] at reread
      cases reread
      exact ⟨_, rfl⟩

/-! ## Where no statement begins -/

/-- A name by itself begins no statement. -/
theorem refuses_named (recovery : Recovery) (cursor next : Cursor) (name : String)
    (spans : Spans cursor [.identifier name] next)
    (noParen : next.rest.head? ≠ some .leftParen) (noEquals : next.rest.head? ≠ some .equals) :
    Refuses (statement recovery) cursor := by
  have noList := refuses_argumentList recovery .allowed argument next noParen
  refine refuses_choice _ _ ?_
  intro alternative member
  simp only [List.mem_cons, List.not_mem_nil, or_false] at member
  rcases member with rfl | rfl | rfl | rfl | rfl | rfl
  · have noLoad : RefusesToken load (.identifier name) := refusesToken_load (by simp)
    exact refuses_map _ _ _ (noLoad cursor (congrArg List.head? spans.1))
  · exact refuses_map _ _ _ (refuses_mapAt _ _ _ (refuses_keywordCall _ _ _ _ _ spans noList))
  · exact refuses_map _ _ _ (refuses_mapAt _ _ _ (refuses_keywordCall _ _ _ _ _ spans noList))
  · exact refuses_map _ _ _ (refuses_mapAt _ _ _ (refuses_keywordCall _ _ _ _ _ spans
      (refuses_between _ _ _ next noParen)))
  · exact refuses_map _ _ _ (refuses_ruleCall recovery name cursor next spans noParen)
  · exact refuses_map _ _ _ (refuses_declaration cursor next name spans noEquals)

theorem refusesToken_statement (recovery : Recovery) (lexeme : Token) (noLoad : lexeme ≠ .load)
    (noName : ∀ name, lexeme ≠ .identifier name) :
    RefusesToken (statement recovery) lexeme := by
  have noRule : RefusesToken (rule recovery) lexeme :=
    .mapAt _ (.seq _ (refusesToken_ruleName (fun name same => absurd same (noName name))))
  refine refusesToken_choice _ ?_
  simp only [List.mem_cons, List.not_mem_nil, or_false, forall_eq_or_imp, forall_eq]
  exact ⟨.map _ (refusesToken_load noLoad),
    .map _ (refusesToken_package recovery (noName _)),
    .map _ (refusesToken_packageGroup recovery (noName _)),
    .map _ (refusesToken_exportsFiles (noName _)),
    .map _ noRule,
    .map _ (.mapAt _ (refusesToken_argument noName))⟩

/-- Where no statement could begin, none is read, and that is the only fault. -/
theorem refuses_statement (recovery : Recovery) (cursor : Cursor) (lexeme : Token)
    (rest : List Token) (found : cursor.rest = lexeme :: rest)
    (noStart : ¬ StatementStarts cursor.rest) : Refuses (statement recovery) cursor := by
  by_cases named : ∃ name, lexeme = .identifier name
  · obtain ⟨name, rfl⟩ := named
    have spans := (spans_singleton cursor ⟨cursor.index + 1, rest⟩ (.identifier name)).mpr
      ⟨rest, found, rfl⟩
    rw [found] at noStart
    apply refuses_named recovery cursor _ name spans
    · intro opened
      obtain ⟨others, rfl⟩ := List.head?_eq_some_iff.mp opened
      exact noStart trivial
    · intro bound
      obtain ⟨others, rfl⟩ := List.head?_eq_some_iff.mp bound
      exact noStart trivial
  · have noLoad : lexeme ≠ .load := by
      intro same
      rw [found, same] at noStart
      exact noStart trivial
    have noName (name : String) : lexeme ≠ .identifier name := fun same => named ⟨name, same⟩
    exact refusesToken_statement recovery lexeme noLoad noName cursor (by rw [found]; rfl)

/-! ## Skipped argument lists -/

section

variable {α β : Type}

theorem mapSpan_error (f : Cursor → Cursor → α → β) (parser : Parser α) (cursor : Cursor)
    (fault : Fault) (failed : (parser.mapSpan f cursor).outcome = .error fault) :
    (parser cursor).outcome = .error fault := by
  cases inner : (parser cursor).outcome with
  | error found => simpa [Parser.mapSpan, inner] using failed
  | ok found => simp [Parser.mapSpan, inner] at failed

/-- A call that is read only with recovery has lost its arguments. -/
theorem seq_emptied (name : Parser β) (list : Parser (List α)) (cursor : Cursor) (fault : Fault)
    (success : Success (β × List α)) (failed : (name.seq list cursor).outcome = .error fault)
    (read : (name.seq (recoverParens list) cursor).outcome = .ok success) :
    ∃ begun inside, (name cursor).outcome = .ok begun ∧ success.value = (begun.value, []) ∧
      Spans begun.next (.leftParen :: (inside ++ [.rightParen])) success.next ∧
      ParensBalance inside := by
  obtain ⟨begun, ended, first, second, same, value⟩ := seq_ok _ cursor success read
  cases plain : (list begun.next).outcome with
  | ok found => simp [Parser.seq, first, plain] at failed
  | error found =>
    obtain ⟨empty, skipped, _⟩ := recoverParens_some list begun.next found ended plain second
    obtain ⟨inside, spans, balance⟩ := skipParens_some begun.next ended.next skipped
    exact ⟨begun, inside, first, by rw [value, empty], same ▸ spans, balance⟩

theorem keywordCall_emptied (name : String) (f : Nat → List (Argument Nat) → α) (cursor : Cursor)
    (fault : Fault) (success : Success α)
    (failed : (mapAt f ((keyword name).seqRight (argumentList .off .allowed argument))
      cursor).outcome = .error fault)
    (read : (mapAt f ((keyword name).seqRight (argumentList .on .allowed argument))
      cursor).outcome = .ok success) :
    ∃ inside, Spans cursor (.identifier name :: .leftParen :: (inside ++ [.rightParen]))
      success.next ∧ ParensBalance inside ∧ success.value = f cursor.index [] := by
  obtain ⟨call, read, callNext, value⟩ := mapSpan_ok _ cursor success read
  obtain ⟨both, read, bothNext, arguments⟩ := mapSpan_ok _ cursor call read
  have noCall : ((keyword name).seqRight (argumentList .off .allowed argument)
      cursor).outcome = .error fault := mapSpan_error _ _ cursor fault failed
  obtain ⟨begun, inside, first, pair, spans, balance⟩ := seq_emptied _ _ cursor fault both
    (mapSpan_error _ _ cursor fault noCall) read
  have word := keyword_ok name cursor begun first
  refine ⟨inside, (spans_cons _ _ _ _).mpr ⟨begun.next, word, ?_⟩, balance, ?_⟩
  · rw [← callNext, ← bothNext]
    exact spans
  · rw [← value, ← arguments, pair]

theorem rule_emptied (cursor : Cursor) (fault : Fault) (success : Success (Rule Nat))
    (failed : (rule .off cursor).outcome = .error fault)
    (read : (rule .on cursor).outcome = .ok success) :
    ∃ name inside, name ∉ callNames ∧
      Spans cursor (.identifier name :: .leftParen :: (inside ++ [.rightParen])) success.next ∧
      ParensBalance inside ∧ success.value = ⟨name, [], some cursor.index⟩ := by
  obtain ⟨both, read, bothNext, value⟩ := mapSpan_ok _ cursor success read
  obtain ⟨begun, inside, first, pair, spans, balance⟩ := seq_emptied _ _ cursor fault both
    (mapSpan_error _ _ cursor fault failed) read
  obtain ⟨word, free⟩ := ruleName_ok cursor begun first
  refine ⟨begun.value, inside, free, ?_, balance, by rw [← value, pair]⟩
  rw [← bothNext]
  exact (spans_cons _ _ _ _).mpr ⟨begun.next, word, spans⟩

end

/-- A statement that only recovery reads is a call that was skipped from its opening
parenthesis to the one that closes it. -/
theorem statement_emptied (cursor : Cursor) (fault : Fault) (success : Success (Statement Nat))
    (failed : (statement .off cursor).outcome = .error fault)
    (read : (statement .on cursor).outcome = .ok success) :
    ∃ name inside, SkipsArguments name ∧
      Spans cursor (.identifier name :: .leftParen :: (inside ++ [.rightParen])) success.next ∧
      ParensBalance inside ∧ success.value = .emptied name cursor.index := by
  have all := firstOf_error _ none cursor fault failed
  simp only [List.mem_cons, List.not_mem_nil, or_false, forall_eq_or_imp, forall_eq] at all
  obtain ⟨noLoad, noPackage, noGroup, noExports, noRule, noDeclaration⟩ := all
  obtain ⟨alternative, member, same⟩ := firstOf_ok _ none cursor success read
  have chosen : (alternative cursor).outcome = .ok success := by rw [← same]; exact read
  have differ (told : ∃ fault, (alternative cursor).outcome = .error fault) : False := by
    obtain ⟨found, stopped⟩ := told
    rw [chosen] at stopped
    cases stopped
  simp only [List.mem_cons, List.not_mem_nil, or_false] at member
  rcases member with rfl | rfl | rfl | rfl | rfl | rfl
  · exact absurd noLoad differ
  · obtain ⟨node, read, next, value⟩ := mapSpan_ok _ cursor success chosen
    obtain ⟨found, stopped⟩ := noPackage
    obtain ⟨inside, spans, balance, empty⟩ := keywordCall_emptied "package" _ cursor found node
      (mapSpan_error _ _ cursor found stopped) read
    exact ⟨"package", inside, .inl rfl, next ▸ spans, balance, by rw [← value, empty]; rfl⟩
  · obtain ⟨node, read, next, value⟩ := mapSpan_ok _ cursor success chosen
    obtain ⟨found, stopped⟩ := noGroup
    obtain ⟨inside, spans, balance, empty⟩ := keywordCall_emptied "package_group" _ cursor found
      node (mapSpan_error _ _ cursor found stopped) read
    exact ⟨"package_group", inside, .inr (.inl rfl), next ▸ spans, balance,
      by rw [← value, empty]; rfl⟩
  · exact absurd noExports differ
  · obtain ⟨node, read, next, value⟩ := mapSpan_ok _ cursor success chosen
    obtain ⟨found, stopped⟩ := noRule
    obtain ⟨name, inside, free, spans, balance, empty⟩ := rule_emptied cursor found node
      (mapSpan_error _ _ cursor found stopped) read
    obtain ⟨notPackage, notGroup⟩ := not_or.mp (noPackage_of_free free)
    refine ⟨name, inside, .inr (.inr free), next ▸ spans, balance, ?_⟩
    rw [← value, empty, Statement.emptied, if_neg notPackage, if_neg notGroup]
  · exact absurd noDeclaration differ

end Parser

end BuildLang
