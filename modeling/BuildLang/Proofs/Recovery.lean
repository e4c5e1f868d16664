import BuildLang.Proofs.Acceptance

/-!
# Recovery

Reading with recovery goes along with plain reading for as long as that succeeds.
Where plain reading stops, recovery leaves a fault, and it takes no statement from
an alternative behind the one it skips for: a call that was skipped begins with a
name and a parenthesis, which no later alternative does.
-/

set_option autoImplicit false

namespace BuildLang

namespace Parser

variable {α β : Type}

/-- What `tolerant` may make of a cursor, compared with `strict`: the same where
that succeeds, and nothing without a fault where it fails.  If it reads on even
so, then `skipped` holds. -/
structure Tolerates (strict tolerant : Parser α) (cursor : Cursor) (skipped : Prop) : Prop where
  same : ∀ success, (strict cursor).outcome = .ok success → tolerant cursor = strict cursor
  told : ∀ fault, (strict cursor).outcome = .error fault → isClean (tolerant cursor) = false
  skips : ∀ fault success, (strict cursor).outcome = .error fault →
    (tolerant cursor).outcome = .ok success → skipped

theorem Tolerates.refl (parser : Parser α) (cursor : Cursor) (skipped : Prop) :
    Tolerates parser parser cursor skipped where
  same _ _ := rfl
  told fault failed := by simp [isClean, failed]
  skips fault success failed read := by simp [failed] at read

theorem Tolerates.mapSpan {strict tolerant : Parser α} {cursor : Cursor} {skipped : Prop}
    (f : Cursor → Cursor → α → β) (tolerates : Tolerates strict tolerant cursor skipped) :
    Tolerates (strict.mapSpan f) (tolerant.mapSpan f) cursor skipped := by
  obtain ⟨same, told, skips⟩ := tolerates
  cases plain : strict cursor with
  | mk faults outcome =>
    rw [plain] at same told skips
    cases outcome with
    | ok success =>
      have equal : tolerant cursor = strict cursor := (same success rfl).trans plain.symm
      constructor
      · intro _ _
        simp only [Parser.mapSpan, equal]
      · intro fault failed
        simp [Parser.mapSpan, plain] at failed
      · intro fault _ failed
        simp [Parser.mapSpan, plain] at failed
    | error fault =>
      have unclean := told fault rfl
      constructor
      · intro success read
        simp [Parser.mapSpan, plain] at read
      · intro _ _
        cases loose : tolerant cursor with
        | mk looseFaults looseOutcome =>
          cases looseOutcome with
          | ok success => simpa [Parser.mapSpan, loose, isClean] using unclean
          | error looseFault => simp [Parser.mapSpan, loose, isClean]
      · intro _ success _ read
        cases loose : tolerant cursor with
        | mk looseFaults looseOutcome =>
          cases looseOutcome with
          | ok found => exact skips fault found rfl (by rw [loose])
          | error looseFault => simp [Parser.mapSpan, loose] at read

theorem Tolerates.weaken {strict tolerant : Parser α} {cursor : Cursor} {skipped weaker : Prop}
    (tolerates : Tolerates strict tolerant cursor skipped) (implied : skipped → weaker) :
    Tolerates strict tolerant cursor weaker :=
  ⟨tolerates.same, tolerates.told,
    fun fault success failed read => implied (tolerates.skips fault success failed read)⟩

/-- A call whose argument list may be skipped. -/
theorem seq_tolerates (name : Parser β) (list : Parser (List α)) (cursor : Cursor) :
    Tolerates (name.seq list) (name.seq (recoverParens list)) cursor
      (∃ success, (name cursor).outcome = .ok success ∧
        success.next.rest.head? = some .leftParen) := by
  cases first : name cursor with
  | mk faults outcome =>
    cases outcome with
    | error fault =>
      have equal : name.seq (recoverParens list) cursor = name.seq list cursor := by
        simp only [Parser.seq, first]
      have failed : (name.seq list cursor).outcome = .error fault := by
        simp only [Parser.seq, first]
      constructor
      · intro _ _
        exact equal
      · intro _ _
        simp [equal, isClean, failed]
      · intro _ success _ read
        simp [equal, failed] at read
    | ok begun =>
      -- Recovery comes in only where the name was read and its list was not.
      cases plain : (list begun.next).outcome with
      | ok ended =>
        have equal : name.seq (recoverParens list) cursor = name.seq list cursor := by
          simp only [Parser.seq, first, recoverParens_ok list begun.next ended plain]
        constructor
        · intro _ _
          exact equal
        · intro fault failed
          simp [Parser.seq, first, plain] at failed
        · intro fault _ failed
          simp [Parser.seq, first, plain] at failed
      | error fault =>
        have stopped : ∀ success, (name.seq list cursor).outcome ≠ .ok success := by
          intro success read
          simp [Parser.seq, first, plain] at read
        rcases recoverParens_error list begun.next fault plain with
          ⟨more, failed⟩ | ⟨more, next, some, opened, skipped⟩
        · have reply : ∃ last, (name.seq (recoverParens list) cursor).outcome = .error last := by
            simp [Parser.seq, first, failed]
          obtain ⟨last, reply⟩ := reply
          constructor
          · intro success read
            exact absurd read (stopped success)
          · intro _ _
            simp [isClean, reply]
          · intro _ success _ read
            simp [reply] at read
        · constructor
          · intro success read
            exact absurd read (stopped success)
          · intro _ _
            simp [Parser.seq, first, skipped, isClean, some]
          · intro _ _ _ _
            exact ⟨begun, rfl, opened⟩

/-! ## Alternatives -/

/-- Alternatives of which none shadows a later one: if a value is read only by
skipping, then every later alternative fails. -/
inductive NoCapture (cursor : Cursor) : List (Parser α) → List (Parser α) → Prop where
  | nil : NoCapture cursor [] []
  | cons {strict tolerant : Parser α} {stricts tolerants : List (Parser α)} {skipped : Prop}
      (head : Tolerates strict tolerant cursor skipped)
      (alone : skipped → ∀ other ∈ stricts, Refuses other cursor)
      (tail : NoCapture cursor stricts tolerants) :
      NoCapture cursor (strict :: stricts) (tolerant :: tolerants)

theorem firstOf_tolerates (cursor : Cursor) (stricts tolerants : List (Parser α))
    (free : NoCapture cursor stricts tolerants) (seen others : Option Fault) :
    (∀ success, (firstOf seen stricts cursor).outcome = .ok success →
      firstOf others tolerants cursor = firstOf seen stricts cursor) ∧
    (∀ fault, (firstOf seen stricts cursor).outcome = .error fault →
      isClean (firstOf others tolerants cursor) = false) := by
  induction free generalizing seen others with
  | nil =>
    refine ⟨?_, ?_⟩
    · intro success read
      cases read
    · intro _ _
      rfl
  | @cons strict tolerant stricts tolerants skipped head alone tail ih =>
    cases plain : (strict cursor).outcome with
    | ok success =>
      have equal := head.same success plain
      have chosen : firstOf seen (strict :: stricts) cursor = strict cursor := by
        simp only [firstOf, plain]
      have looseChosen : firstOf others (tolerant :: tolerants) cursor = strict cursor := by
        simp only [firstOf, equal, plain]
      refine ⟨?_, ?_⟩
      · intro _ _
        rw [chosen, looseChosen]
      · intro fault failed
        rw [chosen, plain] at failed
        cases failed
    | error fault =>
      have later : firstOf seen (strict :: stricts) cursor =
          firstOf (Fault.latest seen (some fault)) stricts cursor := by
        simp only [firstOf, plain]
      cases loose : (tolerant cursor).outcome with
      | error looseFault =>
        have looseLater : firstOf others (tolerant :: tolerants) cursor =
            firstOf (Fault.latest others (some looseFault)) tolerants cursor := by
          simp only [firstOf, loose]
        rw [later, looseLater]
        exact ih _ _
      | ok success =>
        -- Read by skipping, so every later alternative fails without recovery.
        have refuse := alone (head.skips fault success plain loose)
        have chosen : firstOf others (tolerant :: tolerants) cursor = tolerant cursor := by
          simp only [firstOf, loose]
        obtain ⟨last, failed⟩ :=
          refuses_firstOf stricts (Fault.latest seen (some fault)) cursor refuse
        refine ⟨?_, ?_⟩
        · intro _ read
          rw [later, failed] at read
          cases read
        · intro _ _
          rw [chosen]
          exact head.told fault plain

/-! ## Statements -/

theorem keyword_ok (name : String) (cursor : Cursor) (success : Success Unit)
    (read : (keyword name cursor).outcome = .ok success) :
    Spans cursor [.identifier name] success.next := by
  cases found : cursor.rest with
  | nil => simp [keyword, accept, found, Reply.failure] at read
  | cons lexeme rest =>
    by_cases same : lexeme = .identifier name
    · simp only [keyword, accept, found, if_pos same, Reply.success, Except.ok.injEq] at read
      rw [← same, ← read]
      exact (spans_singleton _ _ _).mpr ⟨rest, found, rfl⟩
    · simp [keyword, accept, found, same, Reply.failure] at read

theorem ruleName_ok (cursor : Cursor) (success : Success String)
    (read : (ruleName cursor).outcome = .ok success) :
    Spans cursor [.identifier success.value] success.next ∧ success.value ∉ callNames := by
  cases found : cursor.rest with
  | nil => simp [ruleName, within, accept, found, Reply.failure] at read
  | cons lexeme rest =>
    by_cases rule : ∃ name, lexeme = .identifier name ∧ name ∉ callNames
    · obtain ⟨name, rfl, free⟩ := rule
      have spans := (spans_singleton cursor _ (.identifier name)).mpr ⟨rest, found, rfl⟩
      have reads : ReadsWritten ruleName (.name name) (fun _ => True) :=
        readsWritten_ruleName name free
      obtain ⟨faults, hint, reply, _⟩ := reads cursor _ spans trivial
      rw [reply] at read
      cases read
      exact ⟨spans, free⟩
    · have refuses : RefusesToken ruleName lexeme := by
        apply refusesToken_ruleName
        intro name same
        by_cases reserved : name ∈ callNames
        · exact reserved
        · exact absurd ⟨name, same, reserved⟩ rule
      obtain ⟨fault, reply⟩ := refuses cursor (by rw [found]; rfl)
      rw [reply] at read
      cases read

/-- A cursor in front of a name and a parenthesis. -/
def CallAt (cursor : Cursor) (name : String) : Prop :=
  ∃ next, Spans cursor [.identifier name] next ∧ next.rest.head? = some .leftParen

theorem CallAt.head {cursor : Cursor} {name : String} (call : CallAt cursor name) :
    cursor.rest.head? = some (.identifier name) := by
  obtain ⟨next, spans, _⟩ := call
  exact congrArg List.head? spans.1

theorem CallAt.refuses_declaration {cursor : Cursor} {name : String}
    (call : CallAt cursor name) : Refuses declaration cursor := by
  obtain ⟨next, spans, opened⟩ := call
  exact Parser.refuses_declaration cursor next name spans (by simp [opened])

theorem CallAt.refuses_rule {cursor : Cursor} {name : String} (call : CallAt cursor name)
    (reserved : name ∈ callNames) (recovery : Recovery) : Refuses (rule recovery) cursor := by
  have refuses : RefusesToken ruleName (.identifier name) := by
    apply refusesToken_ruleName
    intro text same
    cases same
    exact reserved
  exact refuses_mapAt _ _ _ (refuses_seq_first _ _ _ (refuses cursor call.head))

theorem keywordCall_tolerates (name : String) (f : Nat → List (Argument Nat) → α)
    (cursor : Cursor) :
    Tolerates
      (mapAt f ((keyword name).seqRight (argumentList .off .allowed argument)))
      (mapAt f ((keyword name).seqRight (argumentList .on .allowed argument))) cursor
      (CallAt cursor name) := by
  have call := seq_tolerates (keyword name) (callArguments (commaList .allowed argument)) cursor
  refine ((call.mapSpan fun _ _ => Prod.snd).mapSpan _).weaken ?_
  rintro ⟨success, read, opened⟩
  exact ⟨success.next, keyword_ok name cursor success read, opened⟩

theorem rule_tolerates (cursor : Cursor) :
    Tolerates (rule .off) (rule .on) cursor (∃ name, CallAt cursor name) := by
  have call := seq_tolerates ruleName (callArguments (commaList (.rejected .rule) ruleAttribute))
    cursor
  refine (call.mapSpan fun start _ (pair : String × List (Attribute Nat)) =>
    Rule.mk pair.1 pair.2 (some start.index)).weaken ?_
  rintro ⟨success, read, opened⟩
  exact ⟨success.value, success.next, (ruleName_ok cursor success read).1, opened⟩

theorem statement_noCapture (cursor : Cursor) :
    NoCapture cursor
      [load.map Statement.load, (package .off).map .package,
        (packageGroup .off).map .packageGroup, exportsFiles.map .exportsFiles,
        (rule .off).map .rule, declaration.map .declaration]
      [load.map Statement.load, (package .on).map .package,
        (packageGroup .on).map .packageGroup, exportsFiles.map .exportsFiles,
        (rule .on).map .rule, declaration.map .declaration] := by
  refine .cons (.refl _ _ False) False.elim ?_
  refine .cons ((keywordCall_tolerates "package" _ cursor).mapSpan _) ?_ ?_
  · intro call other member
    simp only [List.mem_cons, List.not_mem_nil, or_false] at member
    rcases member with rfl | rfl | rfl | rfl
    · exact RefusesToken.map _ (refusesToken_packageGroup .off (by simp)) cursor call.head
    · exact RefusesToken.map _ (refusesToken_exportsFiles (by simp)) cursor call.head
    · exact refuses_map _ _ _ (call.refuses_rule (by decide) .off)
    · exact refuses_map _ _ _ call.refuses_declaration
  refine .cons ((keywordCall_tolerates "package_group" _ cursor).mapSpan _) ?_ ?_
  · intro call other member
    simp only [List.mem_cons, List.not_mem_nil, or_false] at member
    rcases member with rfl | rfl | rfl
    · exact RefusesToken.map _ (refusesToken_exportsFiles (by simp)) cursor call.head
    · exact refuses_map _ _ _ (call.refuses_rule (by decide) .off)
    · exact refuses_map _ _ _ call.refuses_declaration
  refine .cons (.refl _ _ False) False.elim ?_
  refine .cons ((rule_tolerates cursor).mapSpan _) ?_ ?_
  · rintro ⟨name, call⟩ other member
    simp only [List.mem_cons, List.not_mem_nil, or_false] at member
    obtain rfl := member
    exact refuses_map _ _ _ call.refuses_declaration
  exact .cons (.refl _ _ False) False.elim .nil

theorem statement_tolerates (cursor : Cursor) :
    Tolerates (statement .off) (statement .on) cursor True := by
  obtain ⟨same, told⟩ := firstOf_tolerates cursor _ _ (statement_noCapture cursor) none none
  exact ⟨same, told, fun _ _ _ _ => trivial⟩

/-! ## Steps -/

theorem recoverWith_ok (parser fallback : Parser α) (cursor : Cursor) (success : Success α)
    (read : (parser cursor).outcome = .ok success) :
    recoverWith parser fallback cursor = parser cursor := by
  simp only [recoverWith, read]

theorem documentStep_same (cursor : Cursor) (success : Success Step)
    (read : (documentStep .off cursor).outcome = .ok success) :
    documentStep .on cursor = documentStep .off cursor := by
  have tolerates := (statement_tolerates cursor).mapSpan
    (fun start stop statement => Step.mk start.index stop.index statement)
  have same : step (statement .on) cursor = documentStep .off cursor :=
    tolerates.same success read
  have loose : (step (statement .on) cursor).outcome = .ok success := by rw [same, read]
  exact (recoverWith_ok _ _ cursor success loose).trans same

theorem manyFrom_ok (item : Parser α) (fuel : Nat) (hint : Option Fault) (cursor : Cursor) :
    ∃ success, (manyFrom item fuel hint cursor).outcome = .ok success := by
  induction fuel generalizing hint cursor with
  | zero => exact ⟨_, rfl⟩
  | succ fuel ih =>
    cases first : item cursor with
    | mk faults outcome =>
      cases outcome with
      | error fault => exact ⟨_, by simp only [manyFrom, first]; rfl⟩
      | ok success =>
        obtain ⟨ended, rest⟩ := ih (Fault.latest hint success.hint) success.next
        exact ⟨_, by simp only [manyFrom, first, Reply.mapValue, Reply.after, rest]; rfl⟩

/-- What is left can be skipped, if there is anything. -/
theorem skipped_ok (cursor : Cursor) (some : cursor.rest ≠ []) :
    ∃ success, (skipped cursor).outcome = .ok success := by
  cases found : cursor.rest with
  | nil => exact absurd found some
  | cons lexeme rest =>
    obtain ⟨success, read⟩ := manyFrom_ok (butNot statementStart) (rest.length + 1) none
      ⟨cursor.index + 1, rest⟩
    have all : (many (butNot statementStart) ⟨cursor.index + 1, rest⟩).outcome = .ok success := read
    simp only [skipped, step, mapSpan, Parser.map, Parser.seq, anyToken, accept, found,
      Reply.success, all]
    exact ⟨_, rfl⟩

/-- Where plain reading fails with tokens left, reading with recovery goes on and
leaves a fault. -/
theorem documentStep_told (cursor : Cursor) (fault : Fault) (some : cursor.rest ≠ [])
    (failed : (documentStep .off cursor).outcome = .error fault) :
    (documentStep .on cursor).faults ≠ [] ∧
      ∃ success, (documentStep .on cursor).outcome = .ok success := by
  have tolerates := (statement_tolerates cursor).mapSpan
    (fun start stop statement => Step.mk start.index stop.index statement)
  have told : isClean (step (statement .on) cursor) = false := tolerates.told fault failed
  cases loose : step (statement .on) cursor with
  | mk faults outcome =>
    cases outcome with
    | ok success =>
      have read : (step (statement .on) cursor).outcome = .ok success := by rw [loose]
      have reply : documentStep .on cursor = ⟨faults, .ok success⟩ :=
        (recoverWith_ok _ _ cursor success read).trans loose
      rw [reply]
      rw [loose] at told
      refine ⟨?_, success, rfl⟩
      simpa [isClean] using told
    | error last =>
      obtain ⟨success, read⟩ := skipped_ok cursor some
      have reply : documentStep .on cursor = (skipped cursor).after (faults ++ [last]) := by
        simp only [documentStep, recoverWith, loose]
      rw [reply]
      exact ⟨by simp [Reply.after], success, read⟩

/-! ## Whole documents -/

theorem manyFrom_stop (item : Parser α) (fuel : Nat) (hint : Option Fault) (cursor : Cursor)
    (fault : Fault) (failed : (item cursor).outcome = .error fault) :
    ∃ last, manyFrom item (fuel + 1) hint cursor = ⟨[], .ok ⟨[], last, cursor⟩⟩ := by
  simp only [manyFrom, failed]
  exact ⟨_, rfl⟩

/-- Both readings take the same steps until plain reading ends.  If that is before
the end of the input, recovery has met a fault by the end. -/
theorem manyFrom_tolerates (fuel : Nat) (hint other : Option Fault) (cursor : Cursor) :
    ∃ faults values last stop,
      manyFrom (documentStep .off) fuel hint cursor = ⟨faults, .ok ⟨values, last, stop⟩⟩ ∧
      ((∃ last, manyFrom (documentStep .on) fuel other cursor =
          ⟨faults, .ok ⟨values, last, stop⟩⟩) ∨
        stop.rest ≠ [] ∧ (manyFrom (documentStep .on) fuel other cursor).faults ≠ []) := by
  induction fuel generalizing hint other cursor with
  | zero => exact ⟨[], [], hint, cursor, rfl, .inl ⟨other, rfl⟩⟩
  | succ fuel ih =>
    cases plain : documentStep .off cursor with
    | mk faults outcome =>
      cases outcome with
      | ok success =>
        have read : (documentStep .off cursor).outcome = .ok success := by rw [plain]
        have loose : documentStep .on cursor = ⟨faults, .ok success⟩ :=
          (documentStep_same cursor success read).trans plain
        obtain ⟨later, values, last, stop, plainRest, rest⟩ :=
          ih (Fault.latest hint success.hint) (Fault.latest other success.hint) success.next
        refine ⟨faults ++ later, success.value :: values, last, stop, ?_, ?_⟩
        · simp only [manyFrom, plain, plainRest, Reply.after, Reply.mapValue]
        · rcases rest with ⟨looseLast, looseRest⟩ | ⟨some, told⟩
          · refine .inl ⟨looseLast, ?_⟩
            simp only [manyFrom, loose, looseRest, Reply.after, Reply.mapValue]
          · refine .inr ⟨some, ?_⟩
            obtain ⟨ended, looseRest⟩ := manyFrom_ok (documentStep .on) fuel
              (Fault.latest other success.hint) success.next
            simp [manyFrom, loose, Reply.after, Reply.mapValue, looseRest, told]
      | error fault =>
        have failed : (documentStep .off cursor).outcome = .error fault := by rw [plain]
        obtain ⟨last, stopped⟩ := manyFrom_stop _ fuel hint cursor fault failed
        refine ⟨[], [], last, cursor, stopped, ?_⟩
        -- Reading stops here without recovery, with it at the end of input only.
        by_cases ended : cursor.rest = []
        · obtain ⟨fault, looseFailed⟩ := documentStep_end .on cursor ended
          exact .inl (manyFrom_stop _ fuel other cursor fault looseFailed)
        · obtain ⟨told, success, read⟩ := documentStep_told cursor fault ended failed
          obtain ⟨rest, looseRest⟩ := manyFrom_ok (documentStep .on) fuel
            (Fault.latest other success.hint) success.next
          refine .inr ⟨ended, ?_⟩
          simp [manyFrom, read, Reply.after, Reply.mapValue, looseRest, told]

end Parser

open BuildLang.Parser

theorem readSteps_end (recovery : Recovery) (tokens : List Token) (faults : List Fault)
    (steps : List Step) (hint : Option Fault) (stop : Cursor)
    (all : many (documentStep recovery) (.start tokens) = ⟨faults, .ok ⟨steps, hint, stop⟩⟩)
    (ended : stop.rest = []) : readSteps recovery tokens = (some steps, faults) := by
  simp [readSteps, document, seqLeft, Parser.seq, Parser.map, mapSpan, all, finish, ended,
    Reply.success]

theorem readSteps_stuck (recovery : Recovery) (tokens : List Token) (faults : List Fault)
    (steps : List Step) (hint : Option Fault) (stop : Cursor)
    (all : many (documentStep recovery) (.start tokens) = ⟨faults, .ok ⟨steps, hint, stop⟩⟩)
    (left : stop.rest ≠ []) :
    ∃ fault, readSteps recovery tokens = (none, faults ++ [fault]) := by
  cases found : stop.rest with
  | nil => exact absurd found left
  | cons lexeme others =>
    simp [readSteps, document, seqLeft, Parser.seq, Parser.map, mapSpan, all, finish, found,
      Reply.failure]

/-- Reading with recovery gives what plain reading gives, faults included, unless
plain reading gives nothing; then recovery has a fault to tell. -/
theorem readSteps_tolerates (tokens : List Token) :
    ((readSteps .off tokens).1 ≠ none ∧ readSteps .on tokens = readSteps .off tokens) ∨
      (readSteps .off tokens).1 = none ∧ (readSteps .on tokens).2 ≠ [] := by
  obtain ⟨faults, steps, last, stop, plain, rest⟩ :=
    manyFrom_tolerates (tokens.length + 1) none none (.start tokens)
  by_cases ended : stop.rest = []
  · rcases rest with ⟨looseLast, loose⟩ | ⟨left, _⟩
    · have strict := readSteps_end .off tokens faults steps last stop plain ended
      have tolerant := readSteps_end .on tokens faults steps looseLast stop loose ended
      exact .inl ⟨by simp [strict], tolerant.trans strict.symm⟩
    · exact absurd ended left
  · obtain ⟨fault, strict⟩ := readSteps_stuck .off tokens faults steps last stop plain ended
    refine .inr ⟨by rw [strict], ?_⟩
    -- Whether the rest was skipped or not, what was read carries the fault.
    obtain ⟨⟨values, hint, next⟩, read⟩ :=
      manyFrom_ok (documentStep .on) (tokens.length + 1) none (.start tokens)
    have all : many (documentStep .on) (.start tokens) =
        ⟨(many (documentStep .on) (.start tokens)).faults, .ok ⟨values, hint, next⟩⟩ :=
      congrArg (Reply.mk _) read
    by_cases finished : next.rest = []
    · rw [readSteps_end .on tokens _ values hint next all finished]
      rcases rest with ⟨looseLast, loose⟩ | ⟨_, told⟩
      · rw [loose] at read
        cases read
        exact absurd finished ended
      · exact told
    · obtain ⟨last, tolerant⟩ := readSteps_stuck .on tokens _ values hint next all finished
      simp [tolerant]

theorem readTokens_recovery (tokens : List Token) (file : BuildFile Nat) :
    readTokens .on tokens = ⟨some file, []⟩ ↔ readTokens .off tokens = ⟨some file, []⟩ := by
  rw [readTokens_clean, readTokens_clean]
  rcases readSteps_tolerates tokens with ⟨_, same⟩ | ⟨failed, told⟩
  · rw [same]
  · constructor
    · rintro ⟨steps, read, _⟩
      exact absurd (congrArg Prod.snd read) told
    · rintro ⟨steps, read, _⟩
      rw [read] at failed
      cases failed

theorem diagnostics_ne_nil (recovery : Recovery) (lexemes : List Lexeme) (source : String)
    (told : (readTokens recovery (lexemes.map Lexeme.token)).remarks ≠ []) :
    (parseLexemes recovery lexemes source).diagnostics ≠ [] := by
  intro none
  rw [parseLexemes, sort_eq_nil, List.map_eq_nil_iff] at none
  exact told none

/-- Recovery changes neither what is accepted nor the tree.  At no cursor does it
take a step from a statement that plain reading finds there; where it reads on
although plain reading fails, it leaves a fault, and a text that plain reading does
not get through is reported on. -/
theorem recovery_conservative (lexemes : List Lexeme) (source : String) :
    (∀ file, parseTokens .on lexemes source = .ok file ↔
      parseTokens .off lexemes source = .ok file) ∧
    (∀ cursor success, (documentStep .off cursor).outcome = .ok success →
      documentStep .on cursor = documentStep .off cursor) ∧
    (∀ cursor fault success, (documentStep .off cursor).outcome = .error fault →
      (documentStep .on cursor).outcome = .ok success →
        (documentStep .on cursor).faults ≠ []) ∧
    ((readSteps .off (lexemes.map Lexeme.token)).1 = none →
      (parseLexemes .on lexemes source).diagnostics ≠ []) := by
  refine ⟨?_, documentStep_same, ?_, ?_⟩
  · intro file
    rw [parseTokens_ok, parseTokens_ok]
    simp only [readTokens_recovery]
  · intro cursor fault success failed read
    have some : cursor.rest ≠ [] := by
      intro ended
      obtain ⟨last, stopped⟩ := documentStep_end .on cursor ended
      rw [stopped] at read
      cases read
    exact (documentStep_told cursor fault some failed).1
  · intro failed
    apply diagnostics_ne_nil
    rcases readSteps_tolerates (lexemes.map Lexeme.token) with ⟨some, _⟩ | ⟨_, told⟩
    · exact absurd failed some
    · unfold readTokens
      split
      · rename_i faults read
        rw [read] at told
        simpa using told
      · rename_i steps faults read
        rw [read] at told
        simp [told]

end BuildLang
