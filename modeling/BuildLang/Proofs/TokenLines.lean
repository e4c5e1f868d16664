import BuildLang.Process
import BuildLang.Proofs.Layout.Passages
import BuildLang.Proofs.Token.Regions

/-!
# The lines of the tokens

In its simple form a scanned source is one line for each token.  A line gives the
category of its token and, where the category leaves that open, the text of the token
as it was written, with nothing escaped.  The lines still determine the tokens: no
category holds a mark that ends it, and no text of a token holds a newline.
-/

set_option autoImplicit false

namespace BuildLang

/-! ## Lines of a text -/

/-- The text is these lines, each ended by a newline. -/
structure MadeOf (text : String) (lines : List String) : Prop where
  joined : text = String.join (lines.map fun line => line ++ "\n")
  unbroken : ∀ line ∈ lines, '\n' ∉ line.toList

/-- A text has one front before its first stop. -/
theorem front_unique (stop : Char → Bool) (front other : List Char) (mark sign : Char)
    (rest later : List Char) (clean : ∀ c ∈ front, stop c = false)
    (tidy : ∀ c ∈ other, stop c = false) (stops : stop mark = true) (halts : stop sign = true)
    (same : front ++ mark :: rest = other ++ sign :: later) :
    front = other ∧ mark = sign ∧ rest = later := by
  induction front generalizing other with
  | nil =>
    cases other with
    | nil => simpa using same
    | cons c others =>
      obtain ⟨rfl, _⟩ := List.cons.inj same
      simp [tidy mark List.mem_cons_self] at stops
  | cons c front ih =>
    cases other with
    | nil =>
      obtain ⟨rfl, _⟩ := List.cons.inj same
      simp [clean c List.mem_cons_self] at halts
    | cons d others =>
      obtain ⟨rfl, further⟩ := List.cons.inj same
      obtain ⟨rfl, marks, rests⟩ := ih others (fun c member => clean c (.tail _ member))
        (fun c member => tidy c (.tail _ member)) further
      exact ⟨rfl, marks, rests⟩

namespace MadeOf

theorem chars {text : String} {lines : List String} (made : MadeOf text lines) :
    text.toList = lines.flatMap fun line => line.toList ++ ['\n'] := by
  rw [made.joined, String.toList_join, List.flatMap_map]
  simp

/-- There is one newline for each line. -/
theorem count {text : String} {lines : List String} (made : MadeOf text lines) :
    text.toList.count '\n' = lines.length := by
  have unbroken := made.unbroken
  rw [made.chars]
  clear made
  induction lines with
  | nil => rfl
  | cons line others ih =>
    obtain ⟨first, later⟩ := List.forall_mem_cons.mp unbroken
    have none : line.toList.count '\n' = 0 := List.count_eq_zero.mpr first
    rw [List.flatMap_cons, List.count_append, List.count_append, none, ih later]
    simp [Nat.add_comm]

/-- The lines of a text are its own. -/
theorem unique {text : String} {lines others : List String} (made : MadeOf text lines)
    (remade : MadeOf text others) : lines = others := by
  have same := made.chars.symm.trans remade.chars
  have unbroken := made.unbroken
  have whole := remade.unbroken
  clear made remade
  induction lines generalizing others with
  | nil =>
    cases others with
    | nil => rfl
    | cons other further => simp at same
  | cons line lines ih =>
    cases others with
    | nil => simp at same
    | cons other further =>
      obtain ⟨first, later⟩ := List.forall_mem_cons.mp unbroken
      obtain ⟨start, rest⟩ := List.forall_mem_cons.mp whole
      simp only [List.flatMap_cons, List.append_assoc, List.singleton_append] at same
      obtain ⟨fronts, _, rests⟩ := front_unique (fun c => decide (c = '\n')) _ _ _ _ _ _
        (fun c member => decide_eq_false fun broken => first (broken ▸ member))
        (fun c member => decide_eq_false fun broken => start (broken ▸ member))
        (by decide) (by decide) same
      rw [String.toList_inj.mp fronts, ih rests later rest]

end MadeOf

/-! ## The line of a token -/

namespace Token

/-- What the category leaves open. -/
def payload : Token → Option String
  | .string raw => some raw
  | .number raw => some raw
  | .identifier name => some name
  | .boolean value => some (booleanText value)
  | _ => none

/-- The rest of a token's line, behind its category. -/
def lineEnd (payload : Option String) : String :=
  match payload with
  | none => ">"
  | some text => ":" ++ text ++ ">"

theorem simpleText_eq (lexeme : Token) :
    lexeme.simpleText = "<" ++ lexeme.category ++ lineEnd lexeme.payload := by
  cases lexeme <;> simp [simpleText, lineEnd, payload, text, String.append_assoc]

/-- The token of a category and a payload. -/
def ofCategory (category payload : String) : Token :=
  if category = "string" then .string payload
  else if category = "number" then .number payload
  else if category = "identifier" then .identifier payload
  else if category = "boolean" then .boolean (payload = "True")
  else
    ([.load, .glob, .comma, .leftBracket, .rightBracket, .leftParen, .rightParen, .leftBrace,
      .rightBrace, .equals, .colon].find? fun lexeme => lexeme.category = category).getD .colon

theorem ofCategory_category (lexeme : Token) :
    ofCategory lexeme.category (lexeme.payload.getD "") = lexeme := by
  cases lexeme with
  | boolean value => cases value <;> rfl
  | _ => rfl

/-- A colon or an angle bracket ends the category in a line. -/
def endsCategory (c : Char) : Bool :=
  c = ':' || c = '>'

theorem category_clean (lexeme : Token) :
    ∀ c ∈ lexeme.category.toList, endsCategory c = false ∧ c ≠ '\n' := by
  have clean : (lexeme.category.toList.all fun c => !endsCategory c && c != '\n') = true := by
    cases lexeme
    all_goals
      simp only [category]
      decide
  simpa using clean

theorem lineEnd_marked (payload : Option String) :
    ∃ mark rest, (lineEnd payload).toList = mark :: rest ∧ endsCategory mark = true := by
  cases payload with
  | none => exact ⟨'>', [], rfl, rfl⟩
  | some text => exact ⟨':', text.toList ++ ['>'], by simp [lineEnd], rfl⟩

theorem lineEnd_injective (payload other : Option String)
    (same : lineEnd payload = lineEnd other) : payload = other := by
  have chars := congrArg String.toList same
  cases payload with
  | none =>
    cases other with
    | none => rfl
    | some text => simp [lineEnd] at chars
  | some text =>
    cases other with
    | none => simp [lineEnd] at chars
    | some further =>
      have texts : text.toList = further.toList := by simpa [lineEnd] using chars
      rw [String.toList_inj.mp texts]

/-- The line of a token determines it, whatever characters its text holds. -/
theorem simpleText_injective (lexeme other : Token)
    (same : lexeme.simpleText = other.simpleText) : lexeme = other := by
  rw [simpleText_eq, simpleText_eq, String.append_assoc, String.append_assoc,
    String.append_right_inj] at same
  have chars := congrArg String.toList same
  obtain ⟨mark, rest, ending, marked⟩ := lineEnd_marked lexeme.payload
  obtain ⟨sign, later, finish, signed⟩ := lineEnd_marked other.payload
  rw [String.toList_append, String.toList_append, ending, finish] at chars
  obtain ⟨categories, marks, rests⟩ := front_unique endsCategory _ _ _ _ _ _
    (fun c member => (lexeme.category_clean c member).1)
    (fun c member => (other.category_clean c member).1) marked signed chars
  have payloads : lexeme.payload = other.payload := by
    refine lineEnd_injective _ _ (String.toList_inj.mp ?_)
    rw [ending, finish, marks, rests]
  rw [← ofCategory_category lexeme, ← ofCategory_category other, String.toList_inj.mp categories,
    payloads]

theorem payload_text (lexeme : Token) : ∀ text ∈ lexeme.payload, text = lexeme.text := by
  cases lexeme <;> simp [payload, text]

/-- A token that can be scanned is on one line. -/
theorem simpleText_unbroken (lexeme : Token) (legal : lexeme.Legal) :
    '\n' ∉ lexeme.simpleText.toList := by
  have text : '\n' ∉ lexeme.text.toList := (lexeme.trim_text legal).opens.unbroken
  have category : '\n' ∉ lexeme.category.toList :=
    fun member => (lexeme.category_clean _ member).2 rfl
  have ending : '\n' ∉ (lineEnd lexeme.payload).toList := by
    cases given : lexeme.payload with
    | none => decide
    | some payload =>
      rw [lexeme.payload_text payload given]
      simp [lineEnd, text]
  simp [simpleText_eq, category, ending]

end Token

/-! ## The lines of a source -/

theorem simpleText_madeOf (tokens : List Token) (legal : ∀ lexeme ∈ tokens, lexeme.Legal) :
    MadeOf (simpleText tokens) (tokens.map Token.simpleText) where
  joined := by rw [simpleText, List.map_map]; rfl
  unbroken := by
    rw [List.forall_mem_map]
    exact fun lexeme member => lexeme.simpleText_unbroken (legal lexeme member)

theorem run_tokens_simple (settings : Settings) (source : String) (lexemes : List Lexeme)
    (scanned : lex source = .ok lexemes) :
    (⟨.token, .simple⟩ : Processing).run settings source =
      .ok (simpleText (lexemes.map Lexeme.token)) := by
  simp only [Processing.run, scanned]
  rfl

/-- The simple form of the tokens of a source is one line for each token, and two sources
have the same form exactly if they have the same tokens. -/
theorem token_lines (settings others : Settings) (source other : String)
    (lexemes further : List Lexeme) (scanned : lex source = .ok lexemes)
    (read : lex other = .ok further) :
    ∃ text again,
      (⟨.token, .simple⟩ : Processing).run settings source = .ok text ∧
      (⟨.token, .simple⟩ : Processing).run others other = .ok again ∧
      (text = again ↔ lexemes.map Lexeme.token = further.map Lexeme.token) ∧
      MadeOf text (lexemes.map fun lexeme => lexeme.token.simpleText) ∧
      text.toList.count '\n' = lexemes.length := by
  have made := simpleText_madeOf _ (lex_legal source lexemes scanned)
  have remade := simpleText_madeOf _ (lex_legal other further read)
  refine ⟨_, _, run_tokens_simple settings source lexemes scanned,
    run_tokens_simple others other further read, ⟨?_, ?_⟩, ?_, ?_⟩
  · intro same
    have lines := made.unique (same ▸ remade)
    exact List.map_injective_iff.mpr Token.simpleText_injective lines
  · intro same
    rw [same]
  · rwa [List.map_map] at made
  · simpa using made.count

/-- A list of one string that is written like the line of a comma and more. -/
def disguised : String :=
  "[\">, <comma>, <string:\"]"

/-- A list of two strings with a comma between them. -/
def listed : String :=
  "[\"\", \"\"]"

/-- A string that holds the marks of lines is not taken for the tokens it looks like. -/
theorem token_lines_disguised :
    lex disguised = .ok (tokenizeWithSpans disguised) ∧
    lex listed = .ok (tokenizeWithSpans listed) ∧
    ∃ text again,
      (⟨.token, .simple⟩ : Processing).run {} disguised = .ok text ∧
      (⟨.token, .simple⟩ : Processing).run {} listed = .ok again ∧ text ≠ again ∧
      text.toList.count '\n' = 3 := by
  have scanned : lex disguised = .ok (tokenizeWithSpans disguised) :=
    (lex_ok _ _).mpr ⟨by decide +kernel, rfl⟩
  have read : lex listed = .ok (tokenizeWithSpans listed) :=
    (lex_ok _ _).mpr ⟨by decide +kernel, rfl⟩
  have tokens : (tokenizeWithSpans disguised).map Lexeme.token =
      [.leftBracket, .string "\">, <comma>, <string:\"", .rightBracket] := by
    decide +kernel
  have others : (tokenizeWithSpans listed).map Lexeme.token =
      [.leftBracket, .string "\"\"", .comma, .string "\"\"", .rightBracket] := by
    decide +kernel
  obtain ⟨text, again, first, second, same, _, counted⟩ :=
    token_lines {} {} disguised listed _ _ scanned read
  refine ⟨scanned, read, text, again, first, second, ?_, ?_⟩
  · rw [Ne, same, tokens, others]
    decide
  · rw [counted, ← List.length_map Lexeme.token, tokens]
    rfl

end BuildLang
