import BuildLang.Proofs.Grammar.Lays
import BuildLang.Proofs.Survival

/-!
# Malformed argument lists

A call of a rule or a package takes the tokens up to the parenthesis that closes it,
whatever stands between.  Reading and skipping end it at the same token, for what either
of them takes balances, and so what stands behind the call is read as if it stood alone.
-/

set_option autoImplicit false

namespace BuildLang

/-- `name ( inside )` -/
def callTokens (name : String) (inside : List Token) : List Token :=
  .identifier name :: .leftParen :: (inside ++ [.rightParen])

/-- The statement is what a call of that name stands for. -/
def Statement.IsCallOf {π : Type} (name : String) : Statement π → Prop
  | .rule node => node.kind = name ∧ name ∉ callNames
  | .package _ => name = "package"
  | .packageGroup _ => name = "package_group"
  | _ => False

theorem Statement.IsCallOf.rule_of_free {π : Type} {name : String} {node : Statement π}
    (kind : node.IsCallOf name) (free : name ∉ callNames) :
    ∃ rule : Rule π, node = .rule rule ∧ rule.kind = name := by
  obtain ⟨notPackage, notGroup⟩ := not_or.mp (noPackage_of_free free)
  match node with
  | .rule found => exact ⟨found, rfl, kind.1⟩
  | .package _ => exact absurd kind notPackage
  | .packageGroup _ => exact absurd kind notGroup
  | .load _ | .declaration _ | .exportsFiles _ | .skipped => exact kind.elim

theorem Spans.name_eq {cursor next other : Cursor} {first second : String}
    {front back : List Token} (one : Spans cursor (.identifier first :: front) next)
    (two : Spans cursor (.identifier second :: back) other) : first = second := by
  have heads := congrArg List.head? (one.1.symm.trans two.1)
  exact Token.identifier.inj (Option.some.inj heads)

namespace Parser

variable {α β : Type}

/-- The argument list of a call of that name is read, if only as an empty one. -/
def ReadsArguments (recovery : Recovery) (name : String) (cursor : Cursor) : Prop :=
  if name = "package" ∨ name = "package_group" then
    ∃ success, (argumentList recovery .allowed argument cursor).outcome = .ok success
  else
    ∃ success,
      (argumentList recovery (.rejected .rule) ruleAttribute cursor).outcome = .ok success

/-! ## What calls are read from -/

theorem Refuses.not_ok {parser : Parser α} {cursor : Cursor} (refuses : Refuses parser cursor)
    (success : Success α) : (parser cursor).outcome ≠ .ok success := by
  obtain ⟨fault, reply⟩ := refuses
  rw [reply]
  simp

theorem keywordCall_ok (recovery : Recovery) (name : String)
    (f : Nat → List (Argument Nat) → α) (cursor : Cursor) (success : Success α)
    (read : (mapAt f ((keyword name).seqRight (argumentList recovery .allowed argument))
      cursor).outcome = .ok success) :
    ∃ middle inside, Spans cursor [.identifier name] middle ∧
      Spans middle (.leftParen :: (inside ++ [.rightParen])) success.next ∧
      ParensBalance inside ∧
      ∃ list, (argumentList recovery .allowed argument middle).outcome = .ok list := by
  obtain ⟨call, read, callNext, _⟩ := mapSpan_ok _ cursor success read
  obtain ⟨both, read, bothNext, _⟩ := mapSpan_ok _ cursor call read
  obtain ⟨begun, ended, first, second, next, _⟩ := seq_ok _ cursor both read
  obtain ⟨inside, spans, balance, _⟩ :=
    argumentList_ok recovery .allowed laysBehind_argument.lays begun.next ended second
  rw [next, bothNext, callNext] at spans
  exact ⟨begun.next, inside, keyword_ok name cursor begun first, spans, balance, ended, second⟩

theorem rule_ok (recovery : Recovery) (cursor : Cursor) (success : Success (Rule Nat))
    (read : (rule recovery cursor).outcome = .ok success) :
    ∃ middle inside, Spans cursor [.identifier success.value.kind] middle ∧
      Spans middle (.leftParen :: (inside ++ [.rightParen])) success.next ∧
      ParensBalance inside ∧ success.value.kind ∉ callNames ∧
      ∃ list,
        (argumentList recovery (.rejected .rule) ruleAttribute middle).outcome = .ok list := by
  obtain ⟨both, read, bothNext, value⟩ := mapSpan_ok _ cursor success read
  obtain ⟨begun, ended, first, second, next, pair⟩ := seq_ok _ cursor both read
  obtain ⟨word, free⟩ := ruleName_ok cursor begun first
  obtain ⟨inside, spans, balance, _⟩ :=
    argumentList_ok recovery (.rejected .rule) lays_ruleAttribute begun.next ended second
  rw [next, bothNext] at spans
  have kind : success.value.kind = begun.value := by rw [← value, pair]
  rw [kind]
  exact ⟨begun.next, inside, word, spans, balance, free, ended, second⟩

/-- A statement that begins like a call is read up to the parenthesis that closes it. -/
theorem statement_call (recovery : Recovery) (name : String) (skips : SkipsArguments name)
    (cursor : Cursor) (call : CallAt cursor name) (success : Success (Statement Nat))
    (read : (statement recovery cursor).outcome = .ok success) :
    ∃ middle inside, Spans cursor [.identifier name] middle ∧
      Spans middle (.leftParen :: (inside ++ [.rightParen])) success.next ∧
      ParensBalance inside ∧ success.value.IsCallOf name ∧
      ReadsArguments recovery name middle := by
  obtain ⟨alternative, member, same⟩ := firstOf_ok _ none cursor success read
  have chosen : (alternative cursor).outcome = .ok success := by rw [← same]; exact read
  have ⟨_, begins, _⟩ := call
  simp only [List.mem_cons, List.not_mem_nil, or_false] at member
  rcases member with rfl | rfl | rfl | rfl | rfl | rfl
  · have refuses : RefusesToken load (.identifier name) := refusesToken_load (by simp)
    exact absurd chosen ((refuses.map _ cursor call.head).not_ok success)
  · obtain ⟨node, read, next, value⟩ := mapSpan_ok _ cursor success chosen
    obtain ⟨middle, inside, word, spans, balance, list⟩ :=
      keywordCall_ok recovery "package" _ cursor node read
    obtain rfl := begins.name_eq word
    refine ⟨middle, inside, word, next ▸ spans, balance, by rw [← value]; rfl, ?_⟩
    rw [ReadsArguments, if_pos (.inl rfl)]
    exact list
  · obtain ⟨node, read, next, value⟩ := mapSpan_ok _ cursor success chosen
    obtain ⟨middle, inside, word, spans, balance, list⟩ :=
      keywordCall_ok recovery "package_group" _ cursor node read
    obtain rfl := begins.name_eq word
    refine ⟨middle, inside, word, next ▸ spans, balance, by rw [← value]; rfl, ?_⟩
    rw [ReadsArguments, if_pos (.inr rfl)]
    exact list
  · have other : Token.identifier name ≠ .identifier "exports_files" := by
      rintro ⟨⟩
      rcases skips with same | same | free
      · exact absurd same (by decide)
      · exact absurd same (by decide)
      · exact free (by decide)
    exact absurd chosen (((refusesToken_exportsFiles other).map _ cursor call.head).not_ok success)
  · obtain ⟨node, read, next, value⟩ := mapSpan_ok _ cursor success chosen
    obtain ⟨middle, inside, word, spans, balance, free, list⟩ := rule_ok recovery cursor node read
    have kind := begins.name_eq word
    rw [← kind] at word free
    refine ⟨middle, inside, word, next ▸ spans, balance, ?_, ?_⟩
    · rw [← value]
      exact ⟨kind.symm, free⟩
    · rw [ReadsArguments, if_neg (noPackage_of_free free)]
      exact list
  · exact absurd chosen ((refuses_map _ _ _ call.refuses_declaration).not_ok success)

/-! ## Every closed call is read -/

theorem mapSpan_reads (f : Cursor → Cursor → α → β) {parser : Parser α} {cursor : Cursor}
    (reads : ∃ inner, (parser cursor).outcome = .ok inner) :
    ∃ success, (parser.mapSpan f cursor).outcome = .ok success := by
  obtain ⟨inner, read⟩ := reads
  exact ⟨_, by simp only [Parser.mapSpan, read]; rfl⟩

theorem seq_reads {first : Parser α} {second : Parser β} {cursor middle : Cursor}
    {commas : List SurplusComma} {value : α} (begun : Reads first cursor commas value middle)
    (ended : ∃ success, (second middle).outcome = .ok success) :
    ∃ success, (first.seq second cursor).outcome = .ok success := by
  obtain ⟨faults, hint, reply, _⟩ := begun
  obtain ⟨success, read⟩ := ended
  exact ⟨_, by simp only [Parser.seq, reply, read]; rfl⟩

theorem choice_taken (alternatives : List (Parser α)) (cursor : Cursor)
    (reads : ∃ alternative ∈ alternatives, ∃ success, (alternative cursor).outcome = .ok success) :
    ∃ success, (choice alternatives cursor).outcome = .ok success := by
  obtain ⟨alternative, member, success, read⟩ := reads
  cases result : (choice alternatives cursor).outcome with
  | ok success => exact ⟨success, rfl⟩
  | error fault =>
    obtain ⟨found, failed⟩ := firstOf_error alternatives none cursor fault result alternative member
    rw [read] at failed
    cases failed

theorem keywordCall_reads (recovery : Recovery) (name : String)
    (f : Nat → List (Argument Nat) → α) (cursor middle : Cursor)
    (word : Spans cursor [.identifier name] middle)
    (list : ∃ success, (argumentList recovery .allowed argument middle).outcome = .ok success) :
    ∃ success, (mapAt f ((keyword name).seqRight (argumentList recovery .allowed argument))
      cursor).outcome = .ok success :=
  have begun : ReadsWritten (keyword name) (.leaf (.identifier name) fun _ => ())
    fun _ => True := readsWritten_keyword name
  mapSpan_reads _ (mapSpan_reads _ (seq_reads (begun cursor middle word trivial) list))

theorem rule_reads (recovery : Recovery) (name : String) (free : name ∉ callNames)
    (cursor middle : Cursor) (word : Spans cursor [.identifier name] middle)
    (list : ∃ success,
      (argumentList recovery (.rejected .rule) ruleAttribute middle).outcome = .ok success) :
    ∃ success, (rule recovery cursor).outcome = .ok success :=
  have begun : ReadsWritten ruleName (.name name) fun _ => True := readsWritten_ruleName name free
  mapSpan_reads _ (seq_reads (begun cursor middle word trivial) list)

/-- A call whose argument list is read is a statement. -/
theorem statement_reads (recovery : Recovery) (name : String) (skips : SkipsArguments name)
    (cursor middle : Cursor) (word : Spans cursor [.identifier name] middle)
    (list : ReadsArguments recovery name middle) :
    ∃ success, (statement recovery cursor).outcome = .ok success := by
  apply choice_taken
  unfold ReadsArguments at list
  rcases skips with rfl | rfl | free
  · rw [if_pos (.inl rfl)] at list
    exact ⟨(package recovery).map .package, by simp,
      mapSpan_reads _ (keywordCall_reads recovery "package" _ cursor middle word list)⟩
  · rw [if_pos (.inr rfl)] at list
    exact ⟨(packageGroup recovery).map .packageGroup, by simp,
      mapSpan_reads _ (keywordCall_reads recovery "package_group" _ cursor middle word list)⟩
  · rw [if_neg (noPackage_of_free free)] at list
    exact ⟨(rule recovery).map .rule, by simp,
      mapSpan_reads _ (rule_reads recovery name free cursor middle word list)⟩

/-- With recovery an argument list that is closed is read. -/
theorem readsArguments_closed (name : String) (cursor next : Cursor) (inside : List Token)
    (spans : Spans cursor (.leftParen :: (inside ++ [.rightParen])) next)
    (balance : ParensBalance inside) : ReadsArguments .on name cursor := by
  have closed := skipParens_found cursor next inside spans balance
  unfold ReadsArguments
  split
  · exact recoverParens_reads _ cursor next closed
  · exact recoverParens_reads _ cursor next closed

/-- With recovery a call that is closed is read up to the parenthesis that closes it. -/
theorem statement_closed (name : String) (skips : SkipsArguments name) (inside : List Token)
    (balance : ParensBalance inside) (cursor next : Cursor)
    (spans : Spans cursor (callTokens name inside) next) :
    ∃ success, (statement .on cursor).outcome = .ok success ∧ success.next = next ∧
      success.value.IsCallOf name := by
  obtain ⟨middle, word, list⟩ := (spans_cons _ _ _ _).mp spans
  have call : CallAt cursor name := ⟨middle, word, by rw [list.1]; rfl⟩
  obtain ⟨success, read⟩ := statement_reads .on name skips cursor middle word
    (readsArguments_closed name middle next inside list balance)
  obtain ⟨start, other, begun, taken, also, node, _⟩ :=
    statement_call .on name skips cursor call success read
  refine ⟨success, read, ?_, node⟩
  have whole : Spans cursor (callTokens name other) success.next :=
    (spans_cons _ _ _ _).mpr ⟨start, begun, taken⟩
  have same : inside ++ .rightParen :: next.rest = other ++ .rightParen :: success.next.rest := by
    simpa [callTokens] using spans.1.symm.trans whole.1
  obtain ⟨rfl, _⟩ := balance.unique also same
  exact whole.unique spans

end Parser

open BuildLang.Parser

/-! ## Calls that are told of -/

/-- The commas that a statement form complains about do not depend on its place. -/
theorem StatementForm.grammatical_of_surplus (form : StatementForm) (start : Nat)
    (none : form.written.surplus start = []) : form.Grammatical := by
  have marks (place : Nat) :
      (form.written.surplus place).length = (form.written.surplus 0).length := by
    have admits : form.Admits ([] : List Token).head? := form.admits_of_ne _ (by simp)
    let tokens := form.written.tokens
    have reads (index : Nat) := readsWritten_documentStep .on form ⟨index, tokens⟩
      ⟨index + tokens.length, []⟩ ⟨(List.append_nil _).symm, rfl⟩ admits
    obtain ⟨faults, hint, reply, here⟩ := reads place
    obtain ⟨others, _, plain, there⟩ := reads 0
    have moved := shifts_documentStep .on place ⟨0, tokens⟩
    rw [Cursor.shift, Nat.zero_add, reply, plain] at moved
    have same : faults = others.map (Fault.shift place) := congrArg Reply.faults moved
    have size := congrArg List.length here
    have other := congrArg List.length there
    rw [same] at size
    simp only [List.length_map] at size other
    exact size.symm.trans other
  intro place
  have empty := (marks start).symm.trans (congrArg List.length none)
  exact List.length_eq_zero_iff.mp ((marks place).trans empty)

theorem StatementForm.admits_call (form : StatementForm) (name : String) (inside : List Token)
    (spells : form.written.tokens = callTokens name inside) (found : Option Token) :
    form.Admits found := by
  match form with
  | .body (.declaration form) =>
    -- A declaration has an equals sign where a call has its parenthesis.
    have second : some Token.equals = some .leftParen := congrArg (·[1]?) spells
    cases second
  | .load _ | .body (.rule _) | .body (.exportsFiles _) | .package _ | .packageGroup _ =>
    exact trivial

/-- Nothing is told of a call exactly if it is a grammatical statement. -/
theorem documentStep_told_iff (name : String) (inside : List Token) (cursor next : Cursor)
    (spans : Spans cursor (callTokens name inside) next) (faults : List Fault) (value : Step)
    (hint : Option Fault) (reply : documentStep .on cursor = ⟨faults, .ok ⟨value, hint, next⟩⟩) :
    faults = [] ↔ ∃ form : StatementForm, form.Grammatical ∧
      form.written.tokens = callTokens name inside := by
  constructor
  · rintro rfl
    obtain ⟨form, taken, _, clean⟩ := readsOnly_documentStep .on cursor value next
      ((reads_clean _ _ _ _).mpr ⟨hint, reply⟩)
    exact ⟨form, form.grammatical_of_surplus cursor.index clean,
      List.append_cancel_right (taken.1.symm.trans spans.1)⟩
  · rintro ⟨form, grammatical, spells⟩
    obtain ⟨last, clean⟩ := documentStep_grammatical form grammatical cursor next
      (by rw [spells]; exact spans) (form.admits_call name inside spells _)
    rw [reply] at clean
    exact congrArg Reply.faults clean

/-! ## Calls that stand in front -/

/-- What becomes of `name ( inside )` where it begins a statement: the node is one of its
kind, the one that is read without recovery or, if the argument list cannot be read, one
without arguments; and there are faults exactly if this is no grammatical statement. -/
structure Contained (name : String) (inside : List Token) (cursor : Cursor)
    (faults : List Fault) (node : Statement Nat) : Prop where
  kind : node.IsCallOf name
  told : faults ≠ [] ↔ ¬ ∃ form : StatementForm, form.Grammatical ∧
    form.written.tokens = callTokens name inside
  read : ∀ success, (statement .off cursor).outcome = .ok success → node = success.value
  emptied : ∀ middle, Spans cursor [.identifier name] middle →
    ¬ ReadsArguments .off name middle → node = .emptied name cursor.index

theorem Parser.documentStep_contained (name : String) (skips : SkipsArguments name)
    (inside : List Token) (balance : ParensBalance inside) (cursor next : Cursor)
    (spans : Spans cursor (callTokens name inside) next) :
    ∃ faults node hint, documentStep .on cursor =
        ⟨faults, .ok ⟨⟨cursor.index, next.index, node⟩, hint, next⟩⟩ ∧
      Contained name inside cursor faults node := by
  obtain ⟨⟨node, hint, stop⟩, read, rfl, kind⟩ :=
    statement_closed name skips inside balance cursor next spans
  have stepped : (step (statement .on) cursor).outcome =
      .ok ⟨⟨cursor.index, stop.index, node⟩, hint, stop⟩ := by
    simp only [step, Parser.mapSpan, read]
  have outcome := congrArg Reply.outcome (recoverWith_ok _ skipped cursor _ stepped)
  have reply : documentStep .on cursor = ⟨(documentStep .on cursor).faults,
      .ok ⟨⟨cursor.index, stop.index, node⟩, hint, stop⟩⟩ :=
    congrArg (Reply.mk _) (outcome.trans stepped)
  refine ⟨_, node, hint, reply, kind,
    not_congr (documentStep_told_iff name inside cursor stop spans _ _ hint reply), ?_, ?_⟩
  · intro success plain
    rw [(statement_tolerates cursor).same success plain, plain] at read
    exact (congrArg Success.value (Except.ok.inj read)).symm
  · intro middle word unread
    have call : CallAt cursor name := by
      obtain ⟨start, begun, list⟩ := (spans_cons _ _ _ _).mp spans
      exact ⟨start, begun, by rw [list.1]; rfl⟩
    cases plain : (statement .off cursor).outcome with
    | ok success =>
      obtain ⟨start, _, begun, _, _, _, list⟩ :=
        statement_call .off name skips cursor call success plain
      obtain rfl := begun.unique word
      exact absurd list unread
    | error fault =>
      obtain ⟨other, _, _, taken, _, value⟩ := statement_emptied cursor fault _ plain read
      obtain rfl := spans.name_eq taken
      exact value

/-! ## Runs behind a first step -/

/-- Behind a step that takes the tokens in front, the others are read as if they stood
alone, only counted from elsewhere. -/
theorem repeats_front (front others : List Token) (faults : List Fault) (value : Step)
    (hint : Option Fault) (next : Cursor) (spans : Spans (.start (front ++ others)) front next)
    (reply : documentStep .on (.start (front ++ others)) = ⟨faults, .ok ⟨value, hint, next⟩⟩) :
    ∃ later steps stop, stop.rest = [] ∧
      Repeats (documentStep .on) (.start others) later steps stop ∧
      Repeats (documentStep .on) (.start (front ++ others))
        (faults ++ later.map (Fault.shift front.length))
        (value :: steps.map (Step.shift front.length)) (stop.shift front.length) := by
  obtain ⟨later, steps, stop, alone, ended⟩ := repeats_total (.start others)
  have behind : next = (Cursor.start others).shift front.length :=
    spans.unique ⟨rfl, (Nat.zero_add _).trans (Nat.zero_add _).symm⟩
  have moved := alone.shift (shifts_documentStep .on) front.length
  rw [← behind] at moved
  exact ⟨later, steps, stop, ended, alone, .more reply moved⟩

/-- The tree has a rule in front, and besides it what another tree has, up to places. -/
structure BuildFile.LedBy {π ρ σ : Type} (file : BuildFile π) (rule : Rule σ)
    (rest : BuildFile ρ) : Prop where
  rules : file.bare.rules = rule.bare :: rest.bare.rules
  loads : file.bare.loads = rest.bare.loads
  declarations : file.bare.declarations = rest.bare.declarations

theorem BuildFile.ledBy_shift {π ρ : Type} (rule : Rule Nat) (step : Step)
    (node : step.statement = .rule rule) (steps : List Step) (distance : Nat)
    (place : Nat → π) (elsewhere : Nat → ρ) :
    ((ofStatements ((step :: steps.map (Step.shift distance)).map Step.statement)).mapPosition
      place).LedBy rule ((ofStatements (steps.map Step.statement)).mapPosition elsewhere) := by
  have same : ((step :: steps.map (Step.shift distance)).map Step.statement).map Statement.bare =
      .rule rule.bare :: (steps.map Step.statement).map Statement.bare := by
    rw [List.map_cons, List.map_cons, node, List.map_map, List.map_map, List.map_map]
    exact congrArg (List.cons _) (List.map_congr_left fun later _ =>
      Statement.bare_mapPosition (· + distance) later.statement)
  constructor <;> rw [bare_mapPosition, bare_mapPosition, bare_ofStatements, same,
    bare_ofStatements] <;> rfl

theorem parseTokensRecovering_told (lexemes : List Lexeme) (source : String)
    (faults : List Fault) (steps : List Step) (stop : Cursor)
    (repeats : Repeats (documentStep .on) (.start (lexemes.map Lexeme.token)) faults steps stop)
    (ended : stop.rest = []) :
    ∀ fault ∈ faults,
      fault.toRemark.toDiagnostic (tokenPosition (.ofSource source) lexemes.toArray) ∈
        (parseTokensRecovering lexemes source).diagnostics := by
  intro fault member
  rw [parseTokensRecovering_of_repeats lexemes source faults steps stop repeats ended]
  apply (List.mergeSort_perm _ _).mem_iff.mpr
  exact List.mem_map_of_mem (List.mem_append_left _ (List.mem_map_of_mem member))

/-- A malformed argument list is contained by its parentheses.  Wherever a call of a rule
or a package stands that is closed, it is one step that ends with the parenthesis that
closes it; and if it stands in front of other tokens, those are read as if they stood alone.
So what is told of it is in the list of diagnostics, and if it is the call of a rule, then
that rule is all that it adds to the loads, rules and declarations. -/
theorem documentStep_contains_calls (name : String) (skips : SkipsArguments name)
    (inside : List Token) (balance : ParensBalance inside) :
    (∀ cursor next, Spans cursor (callTokens name inside) next →
      ∃ faults node hint, documentStep .on cursor =
          ⟨faults, .ok ⟨⟨cursor.index, next.index, node⟩, hint, next⟩⟩ ∧
        Contained name inside cursor faults node) ∧
    ∀ others, ∃ faults node later steps,
      Contained name inside (.start (callTokens name inside ++ others)) faults node ∧
      readSteps .on others = (some steps, later) ∧
      readSteps .on (callTokens name inside ++ others) =
        (some (⟨0, (callTokens name inside).length, node⟩ ::
            steps.map (Step.shift (callTokens name inside).length)),
          faults ++ later.map (Fault.shift (callTokens name inside).length)) ∧
      ∀ front back alone : List Lexeme, ∀ source other : String,
        front.map Lexeme.token = callTokens name inside → back.map Lexeme.token = others →
        alone.map Lexeme.token = others →
        (∀ fault ∈ faults,
          fault.toRemark.toDiagnostic
              (tokenPosition (.ofSource source) (front ++ back).toArray) ∈
            (parseTokensRecovering (front ++ back) source).diagnostics) ∧
        (name ∉ callNames → ∃ rule rest file, node = .rule rule ∧ rule.kind = name ∧
          (parseTokensRecovering alone other).file = some rest ∧
          (parseTokensRecovering (front ++ back) source).file = some file ∧
          file.LedBy rule rest) := by
  refine ⟨documentStep_contained name skips inside balance, ?_⟩
  intro others
  let front := callTokens name inside
  let next : Cursor := ⟨front.length, others⟩
  have spans : Spans (.start (front ++ others)) front next := ⟨rfl, (Nat.zero_add _).symm⟩
  obtain ⟨faults, node, hint, reply, contained⟩ :=
    documentStep_contained name skips inside balance _ next spans
  obtain ⟨later, steps, stop, ended, alone, whole⟩ :=
    repeats_front front others faults _ hint next spans reply
  refine ⟨faults, node, later, steps, contained, readSteps_of_repeats others later steps stop
    alone ended, readSteps_of_repeats _ _ _ _ whole ended, ?_⟩
  intro first back single source other spells behind same
  have both : (first ++ back).map Lexeme.token = front ++ others := by
    rw [List.map_append, spells, behind]
  rw [← both] at whole
  rw [← same] at alone
  refine ⟨?_, ?_⟩
  · intro fault member
    exact parseTokensRecovering_told _ source _ _ _ whole ended fault
      (List.mem_append_left _ member)
  · intro free
    obtain ⟨rule, rfl, kind⟩ := contained.kind.rule_of_free free
    have rest := parseTokensRecovering_of_repeats single other later steps stop alone ended
    have file := parseTokensRecovering_of_repeats _ source _ _ _ whole ended
    exact ⟨rule, _, _, rfl, kind, congrArg Parsed.file rest, congrArg Parsed.file file,
      BuildFile.ledBy_shift rule _ rfl steps _ _ _⟩

/-- `r ( ( ) )` -/
def nestedCall : List Lexeme :=
  [⟨.identifier "r", 0, 1⟩, ⟨.leftParen, 1, 2⟩, ⟨.leftParen, 2, 3⟩, ⟨.rightParen, 3, 4⟩,
    ⟨.rightParen, 4, 5⟩]

/-- `x = 1` -/
def laterBinding : List Lexeme :=
  [⟨.identifier "x", 6, 7⟩, ⟨.equals, 8, 9⟩, ⟨.number "1", 10, 11⟩]

/-- A list of parentheses, which no rule has for its attributes, leaves a rule without
any and the declaration behind it as it is. -/
theorem documentStep_contains_calls_nested :
    SkipsArguments "r" ∧ ParensBalance [.leftParen, .rightParen] ∧
      ∃ file, (parseTokensRecovering (nestedCall ++ laterBinding) "r(()) x = 1").file = some file ∧
        file.bare.rules = [⟨"r", [], none⟩] ∧
        file.bare.declarations.map Declaration.name = ["x"] := by
  have skips : SkipsArguments "r" := .inr (.inr (by decide))
  have balance : ParensBalance [.leftParen, .rightParen] := ParensBalance.nil.enclose
  obtain ⟨_, run⟩ := documentStep_contains_calls "r" skips _ balance
  obtain ⟨_, node, _, _, contained, _, _, files⟩ := run (laterBinding.map Lexeme.token)
  obtain ⟨_, led⟩ := files nestedCall laterBinding laterBinding "r(()) x = 1" "r(()) x = 1"
    rfl rfl rfl
  obtain ⟨rule, rest, file, same, _, alone, read, led⟩ := led (by decide)
  have unread : ¬ ReadsArguments .off "r"
      ⟨1, (nestedCall.tail ++ laterBinding).map Lexeme.token⟩ := by
    rw [ReadsArguments, if_neg (by decide)]
    rintro ⟨_, ⟨⟩⟩
  have emptied : node = .rule ⟨"r", [], some 0⟩ := contained.emptied _ ⟨rfl, rfl⟩ unread
  obtain rfl : rule = ⟨"r", [], some 0⟩ := Statement.rule.inj (same.symm.trans emptied)
  have shape : (parseTokensRecovering laterBinding "r(()) x = 1").file.map
      (fun found => (found.bare.rules.length, found.bare.declarations.map Declaration.name)) =
        some (0, ["x"]) := by
    decide +kernel
  rw [alone] at shape
  obtain ⟨noRule, names⟩ := Prod.mk.inj (Option.some.inj shape)
  refine ⟨skips, balance, file, read, ?_, ?_⟩
  · rw [led.rules, List.length_eq_zero_iff.mp noRule]
    rfl
  · rw [led.declarations]
    exact names

end BuildLang
