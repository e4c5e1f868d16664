import BuildLang.Diagnostic
import BuildLang.Proofs.Token.Image

/-!
# Spelling

A text spells a list of tokens if it is made of their images with blanks between
them, and two images touch only where the first one cannot go on.  The scanner
returns exactly the tokens that a text spells, and every token it ever returns
is written the way its kind is.
-/

set_option autoImplicit false

namespace BuildLang

/-- The words that are tokens of their own. -/
def keywords : List String :=
  ["load", "glob", "True", "False"]

namespace Token

/-- A token whose text is an image of its kind. -/
def Legal : Token → Prop
  | .string raw => Pattern.StringImage raw.toList
  | .number raw => Pattern.NumberImage raw.toList
  | .identifier name => Pattern.WordImage name.toList ∧ name ∉ keywords
  | _ => True

/-- Words and numbers could go on; strings and marks know their own end. -/
def isOpen : Token → Bool
  | .load | .glob | .boolean _ | .number _ | .identifier _ => true
  | _ => false

end Token

namespace Pattern

/-- A character that a word or a number could go on with. -/
def isJoining (c : Char) : Bool :=
  isWordPart c || c = '.'

theorem clear_wordPart (text : List Char) (clear : Clear isJoining text) :
    Clear isWordPart text := by
  intro c found
  have both := clear c found
  simp only [isJoining, Bool.or_eq_false_iff] at both
  exact both.1

theorem afterNumber_of_clear (text : List Char) (clear : Clear isJoining text) :
    AfterNumber text := by
  have part : Clear isWordPart text := clear_wordPart text clear
  refine ⟨?_, ?_, ?_⟩
  · intro c found
    have outside := part c found
    simp only [isWordPart, Bool.or_eq_false_iff] at outside
    exact outside.2
  · intro c found
    have both := clear c found
    simp only [isJoining, Bool.or_eq_false_iff] at both
    exact both.2
  · intro c found
    have outside := part c found
    cases marked : (c = 'e' || c = 'E') with
    | false => exact marked
    | true =>
      have mark : c = 'e' ∨ c = 'E' := by simpa using marked
      rcases mark with rfl | rfl <;> simp [isWordPart, isWordStart] at outside

end Pattern

namespace Piece

/-! ## The piece at the front -/

theorem first_blank (c : Char) (rest : List Char) (blank : Pattern.isBlank c = true) :
    first c rest = .blank c := by
  simp [first, blank]

theorem first_string (body rest : List Char) (legal : Pattern.StringBody body) :
    first '"' (body ++ '"' :: rest) =
      .token (.string (String.ofList ('"' :: (body ++ ['"'])))) := by
  have reach := Pattern.stringReach_complete body rest legal
  have taken : (body ++ '"' :: rest).take (body.length + 1) = body ++ ['"'] := by
    rw [List.take_length_add_append]
    rfl
  simp [first, Pattern.isBlank, reach, taken]

theorem wordStart_not_blank (c : Char) (start : Pattern.isWordStart c = true) :
    Pattern.isBlank c = false ∧ c ≠ '"' := by
  refine ⟨?_, ?_⟩
  · cases blank : Pattern.isBlank c with
    | false => rfl
    | true =>
      simp only [Pattern.isBlank, Bool.or_eq_true, decide_eq_true_eq] at blank
      rcases blank with (((rfl | rfl) | rfl) | rfl) | rfl <;>
        simp [Pattern.isWordStart] at start
  · rintro rfl
    simp [Pattern.isWordStart] at start

theorem first_word (c : Char) (image rest : List Char)
    (legal : Pattern.WordImage (c :: image)) (clear : Pattern.Clear Pattern.isWordPart rest) :
    first c (image ++ rest) = .token (.ofWord (String.ofList (c :: image))) := by
  have counted := Pattern.wordLength_complete (c :: image) rest legal clear
  have start : Pattern.isWordStart c = true := by
    obtain ⟨d, others, same, start, _⟩ := legal
    obtain ⟨rfl, rfl⟩ := List.cons.inj same
    exact (Pattern.isWordStart_iff c).mpr start
  obtain ⟨noBlank, noQuote⟩ := wordStart_not_blank c start
  simp only [List.cons_append, List.length_cons] at counted
  simp [first, noBlank, noQuote, counted]

theorem digit_not_wordStart (c : Char) (digit : Pattern.isDigit c = true) :
    Pattern.isWordStart c = false := by
  simp only [Pattern.isDigit, Bool.and_eq_true, decide_eq_true_eq, Char.le_def,
    UInt32.le_iff_toNat_le] at digit
  simp only [Pattern.isWordStart, Bool.or_eq_false_iff, Bool.and_eq_false_iff,
    decide_eq_false_iff_not, Char.le_def, UInt32.le_iff_toNat_le, Char.ext_iff,
    ← UInt32.toNat_inj]
  simp at digit ⊢
  omega

theorem digit_not_blank (c : Char) (digit : Pattern.isDigit c = true) :
    Pattern.isBlank c = false ∧ c ≠ '"' := by
  refine ⟨?_, ?_⟩
  · cases blank : Pattern.isBlank c with
    | false => rfl
    | true =>
      simp only [Pattern.isBlank, Bool.or_eq_true, decide_eq_true_eq] at blank
      rcases blank with (((rfl | rfl) | rfl) | rfl) | rfl <;>
        simp [Pattern.isDigit] at digit
  · rintro rfl
    simp [Pattern.isDigit] at digit

theorem numberImage_start (c : Char) (image : List Char)
    (legal : Pattern.NumberImage (c :: image)) : c = '-' ∨ Pattern.isDigit c = true := by
  obtain ⟨sign, whole, fraction, exponent, signed, wholeLegal, _, _, same⟩ := legal
  obtain ⟨d, others, rfl, digit⟩ := Pattern.wholePart_start whole wholeLegal
  rcases signed with rfl | rfl
  · obtain ⟨rfl, _⟩ := List.cons.inj same
    exact .inr digit
  · obtain ⟨rfl, _⟩ := List.cons.inj same
    exact .inl rfl

theorem first_number (c : Char) (image rest : List Char)
    (legal : Pattern.NumberImage (c :: image)) (after : Pattern.AfterNumber rest) :
    first c (image ++ rest) = .token (.number (String.ofList (c :: image))) := by
  have counted := Pattern.numberLength_complete (c :: image) rest legal after
  have apart : Pattern.isBlank c = false ∧ c ≠ '"' ∧ Pattern.isWordStart c = false := by
    rcases numberImage_start c image legal with rfl | digit
    · decide
    · exact ⟨(digit_not_blank c digit).1, (digit_not_blank c digit).2,
        digit_not_wordStart c digit⟩
  obtain ⟨noBlank, noQuote, noWord⟩ := apart
  have noLength : Pattern.wordLength (c :: (image ++ rest)) = 0 := by
    simp [Pattern.wordLength, noWord]
  simp only [List.cons_append, List.length_cons] at counted
  simp [first, noBlank, noQuote, noLength, counted]

/-- A character that no blank, string, word or number begins with. -/
def StartsNothing (mark : Char) : Prop :=
  Pattern.isBlank mark = false ∧ mark ≠ '"' ∧ Pattern.isWordStart mark = false ∧
    mark ≠ '-' ∧ mark ≠ '0' ∧ Pattern.isDigit mark = false

instance (mark : Char) : Decidable (StartsNothing mark) :=
  inferInstanceAs (Decidable (_ ∧ _))

theorem first_mark (mark : Char) (lexeme : Token) (rest : List Char)
    (known : Token.ofMark? mark = some lexeme) (apart : StartsNothing mark) :
    first mark rest = .token lexeme := by
  obtain ⟨noBlank, noQuote, noWord, noMinus, noZero, noDigit⟩ := apart
  have noWordLength : Pattern.wordLength (mark :: rest) = 0 := by
    simp [Pattern.wordLength, noWord]
  have noNumberLength : Pattern.numberLength (mark :: rest) = 0 := by
    simp [Pattern.numberLength, Pattern.unsignedLength, Pattern.wholeLength,
      Pattern.digitsLength, noMinus, noZero, noDigit]
  simp [first, noBlank, noQuote, noWordLength, noNumberLength, known]

theorem first_keyword (word : String) (c : Char) (image rest : List Char)
    (written : word.toList = c :: image) (legal : Pattern.WordImage (c :: image))
    (clear : Pattern.Clear Pattern.isJoining rest) :
    first c (image ++ rest) = .token (.ofWord word) := by
  have whole : word = String.ofList (c :: image) := by
    rw [← written, String.ofList_toList]
  rw [whole]
  exact first_word c image rest legal (Pattern.clear_wordPart rest clear)

theorem ofWord_identifier (name : String) (free : name ∉ keywords) :
    Token.ofWord name = .identifier name := by
  simp only [keywords, List.mem_cons, List.not_mem_nil, or_false, not_or] at free
  simp [Token.ofWord, free]

/-- The words that are tokens of their own look like any other word. -/
theorem keyword_wordImage {word : String} (known : word ∈ keywords) :
    Pattern.WordImage word.toList := by
  simp only [keywords, List.mem_cons, List.not_mem_nil, or_false] at known
  rcases known with rfl | rfl | rfl | rfl <;>
    exact Pattern.wordImage_of_parts rfl (by decide) (by decide)

/-- The scanner takes a legal token whole, whatever follows that cannot prolong it. -/
theorem first_legal (lexeme : Token) (rest : List Char) (legal : lexeme.Legal)
    (apart : lexeme.isOpen = true → Pattern.Clear Pattern.isJoining rest) :
    ∃ c image, lexeme.text.toList = c :: image ∧
      first c (image ++ rest) = .token lexeme := by
  have keyword (word : String) (c : Char) (image : List Char)
      (written : word.toList = c :: image) (known : word ∈ keywords)
      (clear : Pattern.Clear Pattern.isJoining rest) :
      first c (image ++ rest) = .token (.ofWord word) :=
    first_keyword word c image rest written (written ▸ keyword_wordImage known) clear
  cases lexeme with
  | load => exact ⟨'l', _, rfl, keyword "load" _ _ rfl (by decide) (apart rfl)⟩
  | glob => exact ⟨'g', _, rfl, keyword "glob" _ _ rfl (by decide) (apart rfl)⟩
  | boolean value =>
    cases value with
    | true => exact ⟨'T', _, rfl, keyword "True" _ _ rfl (by decide) (apart rfl)⟩
    | false => exact ⟨'F', _, rfl, keyword "False" _ _ rfl (by decide) (apart rfl)⟩
  | string raw =>
    obtain ⟨body, bodyLegal, written⟩ := legal
    refine ⟨'"', _, written, ?_⟩
    rw [List.append_assoc, List.singleton_append, first_string body rest bodyLegal, ← written,
      String.ofList_toList]
  | number raw =>
    obtain ⟨c, image, written⟩ : ∃ c image, raw.toList = c :: image := by
      obtain ⟨sign, whole, _, _, signed, wholeLegal, _, _, same⟩ := legal
      obtain ⟨d, others, rfl, _⟩ := Pattern.wholePart_start whole wholeLegal
      rcases signed with rfl | rfl
      · exact ⟨_, _, same⟩
      · exact ⟨_, _, same⟩
    have image_legal : Pattern.NumberImage (c :: image) := written ▸ legal
    refine ⟨c, image, written, ?_⟩
    rw [first_number c image rest image_legal (Pattern.afterNumber_of_clear rest (apart rfl)),
      ← written, String.ofList_toList]
  | identifier name =>
    obtain ⟨⟨c, image, written, start, others⟩, free⟩ := legal
    refine ⟨c, image, written, ?_⟩
    rw [first_keyword name c image rest written ⟨c, image, rfl, start, others⟩ (apart rfl),
      ofWord_identifier name free]
  | comma => exact ⟨',', [], rfl, first_mark _ _ _ rfl (by decide)⟩
  | leftBracket => exact ⟨'[', [], rfl, first_mark _ _ _ rfl (by decide)⟩
  | rightBracket => exact ⟨']', [], rfl, first_mark _ _ _ rfl (by decide)⟩
  | leftParen => exact ⟨'(', [], rfl, first_mark _ _ _ rfl (by decide)⟩
  | rightParen => exact ⟨')', [], rfl, first_mark _ _ _ rfl (by decide)⟩
  | leftBrace => exact ⟨'{', [], rfl, first_mark _ _ _ rfl (by decide)⟩
  | rightBrace => exact ⟨'}', [], rfl, first_mark _ _ _ rfl (by decide)⟩
  | equals => exact ⟨'=', [], rfl, first_mark _ _ _ rfl (by decide)⟩
  | colon => exact ⟨':', [], rfl, first_mark _ _ _ rfl (by decide)⟩

/-! ## Legality of what is scanned -/

theorem ofMark_legal (mark : Char) (lexeme : Token)
    (known : Token.ofMark? mark = some lexeme) : lexeme.Legal := by
  grind [Token.ofMark?, Token.Legal]

theorem ofWord_legal (word : String) (image : Pattern.WordImage word.toList) :
    (Token.ofWord word).Legal := by
  by_cases known : word ∈ keywords
  · simp only [keywords, List.mem_cons, List.not_mem_nil, or_false] at known
    rcases known with rfl | rfl | rfl | rfl <;> exact trivial
  · rw [ofWord_identifier word known]
    exact ⟨image, known⟩

/-- The piece at the front is written the way its kind is. -/
theorem first_token_legal (c : Char) (rest : List Char) (lexeme : Token)
    (found : first c rest = .token lexeme) : lexeme.Legal := by
  unfold first at found
  split at found
  · cases found
  · split at found
    · split at found
      · rename_i quote _ length closed
        obtain ⟨body, others, legal, rfl, rfl⟩ := Pattern.stringReach_sound rest length closed
        cases found
        refine ⟨body, legal, ?_⟩
        rw [quote, String.toList_ofList, List.take_length_add_append]
        rfl
      · cases found
    · split at found
      · split at found
        · rename_i known
          cases found
          exact ofMark_legal c lexeme known
        · cases found
      · rename_i isNumber
        obtain ⟨image, others, legal, split, counted⟩ :=
          Pattern.numberLength_sound (c :: rest) isNumber
        rw [counted, split, List.take_left] at found
        cases found
        simpa [Token.Legal] using legal
      · rename_i isWord _
        obtain ⟨image, others, legal, split, counted⟩ :=
          Pattern.wordLength_sound (c :: rest) isWord
        rw [counted, split, List.take_left] at found
        cases found
        apply ofWord_legal
        simpa using legal

/-! ## All pieces -/

theorem ofTextFrom_drop (skip : Nat) (text : List Char) :
    ofTextFrom skip text = ofText (text.drop skip) := by
  induction text generalizing skip with
  | nil => cases skip <;> simp [ofText, ofTextFrom]
  | cons c rest ih =>
    cases skip with
    | zero => rfl
    | succ skip => simp [ofTextFrom, ih]

theorem ofText_cons (c : Char) (rest : List Char) :
    ofText (c :: rest) =
      first c rest :: ofText (rest.drop ((first c rest).chars.length - 1)) := by
  rw [ofText, ofTextFrom, ofTextFrom_drop]

theorem ofText_blank (c : Char) (rest : List Char) (blank : Pattern.isBlank c = true) :
    ofText (c :: rest) = .blank c :: ofText rest := by
  rw [ofText_cons, first_blank c rest blank]
  rfl

theorem ofText_token (lexeme : Token) (rest : List Char) (legal : lexeme.Legal)
    (apart : lexeme.isOpen = true → Pattern.Clear Pattern.isJoining rest) :
    ofText (lexeme.text.toList ++ rest) = .token lexeme :: ofText rest := by
  obtain ⟨c, image, written, found⟩ := first_legal lexeme rest legal apart
  rw [written, List.cons_append, ofText_cons, found]
  simp [chars, written]

theorem ofTextFrom_token_legal (text : List Char) (skip : Nat) (lexeme : Token)
    (member : .token lexeme ∈ ofTextFrom skip text) : lexeme.Legal := by
  induction text generalizing skip with
  | nil => cases skip <;> simp [ofTextFrom] at member
  | cons c rest ih =>
    cases skip with
    | zero =>
      rw [ofTextFrom] at member
      rcases List.mem_cons.mp member with found | later
      · exact first_token_legal c rest lexeme found.symm
      · exact ih _ later
    | succ skip => exact ih skip member

end Piece

/-- A token is legal if its text is scanned as that token and nothing else. -/
theorem Token.legal_iff (lexeme : Token) :
    lexeme.Legal ↔ Piece.ofText lexeme.text.toList = [.token lexeme] := by
  constructor
  · intro legal
    have scanned := Piece.ofText_token lexeme [] legal fun _ => Pattern.clear_nil _
    rwa [List.append_nil] at scanned
  · intro scanned
    have member : .token lexeme ∈ Piece.ofText lexeme.text.toList := by
      rw [scanned]
      exact List.mem_singleton.mpr rfl
    exact Piece.ofTextFrom_token_legal _ 0 lexeme member

instance (lexeme : Token) : Decidable lexeme.Legal :=
  decidable_of_iff _ lexeme.legal_iff.symm

namespace Piece

def token? : Piece → Option Token
  | .token lexeme => some lexeme
  | _ => none

def isJunk : Piece → Bool
  | .junk _ => true
  | _ => false

theorem lexemesFrom_tokens (offset : Nat) (pieces : List Piece) :
    (lexemesFrom offset pieces).map Lexeme.token = pieces.filterMap token? := by
  induction pieces generalizing offset with
  | nil => rfl
  | cons piece rest ih =>
    cases piece with
    | token lexeme => simp [lexemesFrom, token?, ih]
    | blank c => simp [lexemesFrom, token?, List.filterMap_cons, ih]
    | junk text => simp [lexemesFrom, token?, List.filterMap_cons, ih]

theorem junkRunsFrom_nil (offset : Nat) (pieces : List Piece)
    (clean : ∀ piece ∈ pieces, piece.isJunk = false) : junkRunsFrom offset pieces = [] := by
  induction pieces generalizing offset with
  | nil => rfl
  | cons piece rest ih =>
    have later := ih (offset + piece.size) (fun other member => clean other (by simp [member]))
    cases piece with
    | token lexeme => simpa [junkRunsFrom] using later
    | blank c => simpa [junkRunsFrom] using later
    | junk text => simp [isJunk] at clean

end Piece

/-! ## Spelled token lists -/

/-- `text` is made of the images of `tokens`, with blanks wherever it likes. -/
inductive Spells : List Char → List Token → Prop where
  | nil : Spells [] []
  | blank {c : Char} {text : List Char} {tokens : List Token}
      (blank : Pattern.isBlank c = true) (later : Spells text tokens) :
      Spells (c :: text) tokens
  | token {lexeme : Token} {text : List Char} {tokens : List Token} (legal : lexeme.Legal)
      (apart : lexeme.isOpen = true → Pattern.Clear Pattern.isJoining text)
      (later : Spells text tokens) : Spells (lexeme.text.toList ++ text) (lexeme :: tokens)

theorem Spells.pieces {text : List Char} {tokens : List Token} (spelled : Spells text tokens) :
    (Piece.ofText text).filterMap Piece.token? = tokens ∧
      ∀ piece ∈ Piece.ofText text, piece.isJunk = false := by
  induction spelled with
  | nil => exact ⟨rfl, by simp [Piece.ofText, Piece.ofTextFrom]⟩
  | @blank c text tokens blank later ih =>
    rw [Piece.ofText_blank c text blank]
    simpa [Piece.token?, Piece.isJunk, List.filterMap_cons] using ih
  | @token lexeme text tokens legal apart later ih =>
    rw [Piece.ofText_token lexeme text legal apart]
    simpa [Piece.token?, Piece.isJunk, List.filterMap_cons] using ih

/-- Scanning a spelled text gives back the tokens it spells. -/
theorem lex_of_spells (source : String) (tokens : List Token)
    (spelled : Spells source.toList tokens) :
    ∃ lexemes, lex source = .ok lexemes ∧ lexemes.map Lexeme.token = tokens := by
  obtain ⟨read, clean⟩ := spelled.pieces
  refine ⟨tokenizeWithSpans source, ?_, ?_⟩
  · simp [lex, junkRuns, Piece.junkRunsFrom_nil 0 _ clean]
  · rw [tokenizeWithSpans, Piece.lexemesFrom_tokens, read]

/-- Whatever source they come from, scanned tokens are legal. -/
theorem lex_legal (source : String) (lexemes : List Lexeme) (scanned : lex source = .ok lexemes) :
    ∀ lexeme ∈ lexemes.map Lexeme.token, lexeme.Legal := by
  intro lexeme member
  have same : lexemes = tokenizeWithSpans source := by
    unfold lex at scanned
    split at scanned
    · exact (Except.ok.inj scanned).symm
    · cases scanned
  rw [same, tokenizeWithSpans, Piece.lexemesFrom_tokens] at member
  obtain ⟨piece, found, read⟩ := List.mem_filterMap.mp member
  cases piece with
  | token other =>
    cases Option.some.inj read
    exact Piece.ofTextFrom_token_legal source.toList 0 lexeme found
  | blank c => cases read
  | junk text => cases read

/-! ## Putting spelled texts together -/

theorem Spells.append {text later : List Char} {tokens others : List Token}
    (spelled : Spells text tokens) (clear : Pattern.Clear Pattern.isJoining later)
    (rest : Spells later others) : Spells (text ++ later) (tokens ++ others) := by
  induction spelled with
  | nil => exact rest
  | blank blank _ ih => exact .blank blank ih
  | @token lexeme text tokens legal apart _ ih =>
    rw [List.append_assoc]
    refine .token legal ?_ ih
    intro isOpen
    cases text with
    | nil => exact clear
    | cons c text => simpa [Pattern.clear_cons] using apart isOpen

/-- `text` spells `tokens` whatever spelled text it stands before. -/
def Leads (text : List Char) (tokens : List Token) : Prop :=
  ∀ later others, Spells later others → Spells (text ++ later) (tokens ++ others)

theorem Leads.spells {text : List Char} {tokens : List Token} (leads : Leads text tokens) :
    Spells text tokens := by
  simpa using leads [] [] .nil

theorem Leads.append {text later : List Char} {tokens others : List Token}
    (leads : Leads text tokens) (rest : Leads later others) :
    Leads (text ++ later) (tokens ++ others) := by
  intro tail following spelled
  rw [List.append_assoc, List.append_assoc]
  exact leads _ _ (rest _ _ spelled)

end BuildLang
