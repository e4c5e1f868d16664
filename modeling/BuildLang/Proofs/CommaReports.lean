import BuildLang.Proofs.Grammar.HonestGrammar
import BuildLang.Proofs.Misplacement
import BuildLang.Proofs.Spacing
import BuildLang.Proofs.TrailingCommas

/-!
# Reports of trailing commas

What a caller is told of a trailing comma is so: the comma is there, and the token that
closes its list follows.  One report is wrong.  Where recovery skips the arguments of a
rule because no attribute can be read behind a comma, that comma is reported as a trailing
one, although the list goes on.
-/

set_option autoImplicit false

namespace BuildLang

/-- The diagnostic complains of a trailing comma. -/
def Diagnostic.TellsOfComma (diagnostic : Diagnostic) : Prop :=
  "trailing comma is not allowed in ".toList <+: diagnostic.message.toList

/-- The diagnostic points at a comma, and it names the list that the token behind that
comma closes. -/
def Diagnostic.Trails (lexemes : List Lexeme) (diagnostic : Diagnostic) : Prop :=
  ∃ list : StrictList, diagnostic.message = list.complaint ∧
    ∃ front comma last back, lexemes = front ++ comma :: last :: back ∧ comma.token = .comma ∧
      last.token = list.closing ∧ ∃ place ∈ diagnostic.position, place.offset = comma.start

/-- The diagnostic points at a comma among the arguments of a rule which stands neither in
front of their end nor in front of another attribute. -/
def Diagnostic.CutsShort (lexemes : List Lexeme) (diagnostic : Diagnostic) : Prop :=
  diagnostic.message = "trailing comma is not allowed in a rule" ∧
    ∃ front comma back, lexemes = front ++ comma :: back ∧ comma.token = .comma ∧
      (back.map Lexeme.token).head? ≠ some .rightParen ∧
      (∃ fault, (Parser.ruleAttribute ⟨front.length + 1, back.map Lexeme.token⟩).outcome =
        .error fault) ∧
      ∃ place ∈ diagnostic.position, place.offset = comma.start

/-! ## Messages -/

theorem head_append (front back : String) (first : Char)
    (begins : front.toList.head? = some first) :
    (front ++ back).toList.head? = some first := by
  rw [String.toList_append, List.head?_append, begins]
  rfl

theorem describe_head {π : Type} (statement : Statement π) :
    ∃ first, statement.describe.toList.head? = some first ∧ first ≠ 't' := by
  cases statement with
  | load => exact ⟨'l', by simp [Statement.describe], by decide⟩
  | rule => exact ⟨'r', by simp [Statement.describe], by decide⟩
  | declaration => exact ⟨'v', by simp [Statement.describe], by decide⟩
  | package => exact ⟨'p', by simp [Statement.describe], by decide⟩
  | packageGroup => exact ⟨'p', by simp [Statement.describe], by decide⟩
  | exportsFiles => exact ⟨'e', by simp [Statement.describe], by decide⟩
  | skipped => exact ⟨'u', by simp [Statement.describe], by decide⟩

/-- No misplacement is told like a trailing comma. -/
theorem misplacement_head {π : Type} (misplacement : Misplacement) (statement : Statement π) :
    ∃ first, (misplacement.message statement.describe).toList.head? = some first ∧
      first ≠ 't' := by
  obtain ⟨first, begins, other⟩ := describe_head statement
  cases misplacement with
  | duplicate => exact ⟨'d', head_append _ _ 'd' rfl, by decide⟩
  | lateLoad => exact ⟨first, head_append _ _ first begins, other⟩
  | lateBody => exact ⟨first, head_append _ _ first begins, other⟩
  | latePackage => exact ⟨first, head_append _ _ first begins, other⟩

theorem Fault.plain_head (fault : Fault) (plain : fault.Plain) :
    fault.message.toList.head? = some 'u' := by
  unfold Fault.message
  split
  · rename_i list reason
    exact absurd reason (plain list)
  · rfl
  · exact head_append _ _ 'u' (head_append _ _ 'u' rfl)

/-- A complaint about a trailing comma begins like no other. -/
theorem Diagnostic.TellsOfComma.begins {diagnostic : Diagnostic} (tells : diagnostic.TellsOfComma) :
    diagnostic.message.toList.head? = some 't' := by
  obtain ⟨rest, whole⟩ := tells
  rw [← whole, List.head?_append]
  rfl

theorem tells_of_message {diagnostic : Diagnostic} (list : StrictList)
    (message : diagnostic.message = list.complaint) : diagnostic.TellsOfComma := by
  rw [Diagnostic.TellsOfComma, message]
  cases list with
  | array => exact ⟨"an array".toList, by decide +kernel⟩
  | rule => exact ⟨"a rule".toList, by decide +kernel⟩
  | load => exact ⟨"load()".toList, by decide +kernel⟩

theorem trailing_of_tells (fault : Fault) (place : Nat → Position)
    (tells : (fault.toRemark.toDiagnostic place).TellsOfComma) :
    ∃ list, fault.reason = .trailingComma list := by
  by_contra plain
  have head := fault.plain_head fun list reason => plain ⟨list, reason⟩
  cases head.symm.trans tells.begins

/-! ## Places -/

/-- Whatever is remarked is a fault of the grammar or a statement out of place. -/
theorem remark_cases (recovery : Recovery) (tokens : List Token) (remark : Remark)
    (member : remark ∈ (readTokens recovery tokens).remarks) :
    (∃ fault ∈ (readSteps recovery tokens).2, remark = fault.toRemark) ∨
      ∃ (misplacement : Misplacement) (statement : Statement Nat),
        remark.message = misplacement.message statement.describe := by
  have told (faults : List Fault) (found : remark ∈ faults.map Fault.toRemark) :
      ∃ fault ∈ faults, remark = fault.toRemark := by
    obtain ⟨fault, inside, rfl⟩ := List.mem_map.mp found
    exact ⟨fault, inside, rfl⟩
  unfold readTokens at member
  split at member
  · rename_i faults read
    rw [read]
    exact .inl (told faults member)
  · rename_i steps faults read
    rw [read]
    dsimp only at member
    split at member
    · exact .inl (told faults member)
    · rcases List.mem_append.mp member with early | late
      · exact .inl (told faults early)
      · obtain ⟨index, inside, rfl⟩ := List.mem_iff_getElem.mp late
        have gets := remarks_misplaced steps
        have step := gets.get (by rw [gets.length_eq]; exact inside) inside
        obtain ⟨_, misplacement, message⟩ := step
        exact .inr ⟨misplacement, _, message⟩

theorem blamed_place (source : String) (front back : List Token) (index : Nat)
    (split : (tokenizeWithSpans source).map Lexeme.token = front ++ .comma :: back)
    (start : index = 0 + front.length) :
    ∃ early comma late, tokenizeWithSpans source = early ++ comma :: late ∧
      comma.token = .comma ∧ late.map Lexeme.token = back ∧ early.length = index ∧
      (tokenPlace source index).offset = comma.start := by
  obtain ⟨early, comma, late, whole, length, isComma, behind⟩ := lexemes_split _ _ _ _ split
  rw [Nat.zero_add, ← length] at start
  refine ⟨early, comma, late, whole, isComma, behind, start.symm, ?_⟩
  exact tokenPlace_inside source index comma (by simp [whole, start])

/-- What is blamed is a comma at the place of the blame. -/
theorem blamed_told (recovery : Recovery) (source : String) (fault : Fault) (list : StrictList)
    (reason : fault.reason = .trailingComma list)
    (blamed : Blamed recovery (.start ((tokenizeWithSpans source).map Lexeme.token)) fault.start
      list) :
    (fault.toRemark.toDiagnostic (tokenPlace source)).Trails (tokenizeWithSpans source) ∨
      recovery = .on ∧
        (fault.toRemark.toDiagnostic (tokenPlace source)).CutsShort (tokenizeWithSpans source) := by
  have message := message_of_trailing fault list reason
  cases blamed with
  | trailing front back rest place =>
    obtain ⟨early, comma, late, whole, isComma, behind, _, offset⟩ :=
      blamed_place source front _ fault.start rest place
    obtain ⟨last, others, rfl, closes, _⟩ := List.map_eq_cons_iff.mp behind
    exact .inl ⟨list, message, early, comma, last, others, whole, isComma, closes, _, rfl, offset⟩
  | cut front back skips rest place fails unclosed =>
    obtain ⟨early, comma, late, whole, isComma, rfl, length, offset⟩ :=
      blamed_place source front back fault.start rest place
    rw [← length] at fails
    exact .inr ⟨skips, message, early, comma, late, whole, isComma, unclosed, fails, _, rfl,
      offset⟩

theorem reported_comma (recovery : Recovery) (source : String) (diagnostic : Diagnostic)
    (member : diagnostic ∈ (parseLexemes recovery (tokenizeWithSpans source) source).diagnostics)
    (tells : diagnostic.TellsOfComma) :
    diagnostic.Trails (tokenizeWithSpans source) ∨
      recovery = .on ∧ diagnostic.CutsShort (tokenizeWithSpans source) := by
  obtain ⟨remark, found, rfl⟩ := List.mem_map.mp ((List.mergeSort_perm _ _).mem_iff.mp member)
  rcases remark_cases recovery _ remark found with
    ⟨fault, inside, rfl⟩ | ⟨misplacement, statement, message⟩
  · obtain ⟨list, reason⟩ := trailing_of_tells fault _ tells
    exact blamed_told recovery source fault list reason
      (readSteps_fair recovery _ fault inside list reason)
  · obtain ⟨first, begins, other⟩ := misplacement_head misplacement statement
    have head : remark.message.toList.head? = some 't' := tells.begins
    rw [message, begins] at head
    exact absurd (Option.some.inj head) other

/-- What is told of a trailing comma is so.  If a source lexes, each diagnostic that complains
of one points at a comma, and the token behind that comma closes the list the diagnostic
names; only with recovery it can be one among the arguments of a rule behind which no
attribute can be read. -/
theorem trailing_comma_reports (source : String) (lexemes : List Lexeme)
    (lexed : lex source = .ok lexemes) :
    (∀ recovery errors, parseWith recovery source = .error errors →
      ∀ diagnostic ∈ errors, diagnostic.TellsOfComma →
        diagnostic.Trails lexemes ∨ recovery = .on ∧ diagnostic.CutsShort lexemes) ∧
    ∀ diagnostic ∈ (parseRecovering source).diagnostics, diagnostic.TellsOfComma →
      diagnostic.Trails lexemes ∨ diagnostic.CutsShort lexemes := by
  obtain ⟨rfl, _⟩ := tokenize_lexed source lexemes lexed
  constructor
  · intro recovery errors failed diagnostic member tells
    rw [parseWith, lexed] at failed
    have failed : (parseLexemes recovery (tokenizeWithSpans source) source).toExcept =
        .error errors := failed
    refine reported_comma recovery source diagnostic ?_ tells
    unfold Parsed.toExcept at failed
    split at failed
    · cases failed
    · cases failed
      exact member
  · intro diagnostic member tells
    rw [parseRecovering, lexed] at member
    exact (reported_comma .on source diagnostic member tells).imp_right And.right

theorem parseWith_remark (recovery : Recovery) (source : String) (remark : Remark)
    (lexed : lex source = .ok (tokenizeWithSpans source))
    (remarks : (readTokens recovery (tokenize source)).remarks = [remark]) :
    parseWith recovery source = .error [remark.toDiagnostic (tokenPlace source)] := by
  have told : (parseLexemes recovery (tokenizeWithSpans source) source).diagnostics =
      [remark.toDiagnostic (tokenPlace source)] := by
    have remarks : (readTokens recovery ((tokenizeWithSpans source).map Lexeme.token)).remarks =
        [remark] := remarks
    rw [parseLexemes, remarks, Diagnostic.sort, List.map_singleton, List.mergeSort_singleton]
    rfl
  rw [parseWith, lexed]
  change (parseLexemes recovery (tokenizeWithSpans source) source).toExcept = _
  unfold Parsed.toExcept
  split
  · rename_i clean
    rw [told] at clean
    cases clean
  · rw [told]

/-- A comma in front of the end of an array. -/
def endedArray : String := "x = [1,]"

theorem trailing_comma_reports_array :
    lex endedArray = .ok (tokenizeWithSpans endedArray) ∧ ∃ diagnostic,
      parseWith .off endedArray = .error [diagnostic] ∧ diagnostic.TellsOfComma ∧
        diagnostic.Trails (tokenizeWithSpans endedArray) := by
  have lexed : lex endedArray = .ok (tokenizeWithSpans endedArray) :=
    (lex_ok _ _).mpr ⟨by decide +kernel, rfl⟩
  have parsed := parseWith_remark .off endedArray
    ⟨4, "trailing comma is not allowed in an array"⟩ lexed (by decide +kernel)
  refine ⟨lexed, _, parsed, tells_of_message .array rfl, ?_⟩
  rcases (trailing_comma_reports endedArray _ lexed).1 .off _ parsed _ (List.mem_singleton.mpr rfl)
    (tells_of_message .array rfl) with trails | ⟨never, _⟩
  · exact trails
  · cases never

/-- A number where an attribute should be, in arguments that can be skipped. -/
def strayNumber : String := "r(name = \"x\", 5)"

/-- With recovery the comma in front of the number is reported as a trailing one. -/
theorem skipped_comma_reported :
    lex strayNumber = .ok (tokenizeWithSpans strayNumber) ∧ ∃ diagnostic,
      parseWith .on strayNumber = .error [diagnostic] ∧ diagnostic.TellsOfComma ∧
        ¬ diagnostic.Trails (tokenizeWithSpans strayNumber) := by
  have lexed : lex strayNumber = .ok (tokenizeWithSpans strayNumber) :=
    (lex_ok _ _).mpr ⟨by decide +kernel, rfl⟩
  refine ⟨lexed, _, parseWith_remark .on strayNumber
    ⟨5, "trailing comma is not allowed in a rule"⟩ lexed (by decide +kernel),
    tells_of_message .rule rfl, ?_⟩
  rintro ⟨list, _, front, comma, last, back, whole, isComma, closes, _⟩
  have tokens : (tokenizeWithSpans strayNumber).map Lexeme.token =
      [.identifier "r", .leftParen, .identifier "name", .equals, .string "\"x\"", .comma,
        .number "5", .rightParen] := by decide +kernel
  have only : ∀ index < 8, ((tokenizeWithSpans strayNumber).map Lexeme.token)[index]? =
      some .comma → ((tokenizeWithSpans strayNumber).map Lexeme.token)[index + 1]? =
        some (.number "5") := by
    rw [tokens]
    decide
  have inside : front.length < 8 := by
    have length := congrArg List.length tokens
    rw [whole] at length
    simp only [List.map_append, List.map_cons, List.length_append, List.length_cons,
      List.length_map, List.length_nil] at length
    omega
  have next := only front.length inside (by simp [whole, isComma])
  have behind : last.token = .number "5" := by simpa [whole] using next
  rw [closes] at behind
  cases list <;> cases behind

end BuildLang
