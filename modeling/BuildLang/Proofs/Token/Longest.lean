import BuildLang.Proofs.Token.Catalogue
import BuildLang.Proofs.Token.Regions

/-!
# The longest lexeme

The scanner falls back to the last place where a number was complete, and never further:
no image in the text is longer than what its kind takes.  So no lexeme at the place of a
token is longer than the token, and of those that are as long the one with a fixed
spelling is taken.
-/

set_option autoImplicit false

namespace BuildLang

namespace Pattern

/-! ## No part is cut short -/

theorem digits_covered (digits tail : List Char) (inside : ∀ c ∈ digits, c ∈ decimals) :
    digits.length ≤ digitsLength (digits ++ tail) := by
  simp only [← isDigit_iff] at inside
  rw [digitsLength, List.takeWhile_append_of_pos inside, List.length_append]
  exact Nat.le_add_right _ _

theorem whole_covered (whole tail : List Char) (legal : WholePart whole) :
    whole.length ≤ wholeLength (whole ++ tail) := by
  cases legal with
  | zero => exact Nat.le_refl 1
  | @digits c rest nonzero first others =>
    have inside : ∀ d ∈ c :: rest, d ∈ decimals := List.forall_mem_cons.mpr ⟨first, others⟩
    rw [List.cons_append, wholeLength, if_neg nonzero]
    exact digits_covered (c :: rest) tail inside

theorem fraction_covered (fraction tail : List Char) (legal : FractionPart fraction) :
    fraction.length ≤ fractionLength (fraction ++ tail) := by
  cases legal with
  | absent => exact Nat.zero_le _
  | @present digits some =>
    have counted := digits_covered digits tail some.2
    have nonempty := List.length_pos_of_ne_nil some.1
    rw [List.cons_append, fractionLength, if_pos rfl]
    split
    · omega
    · simp only [List.length_cons]
      omega

theorem exponent_covered (exponent tail : List Char) (legal : ExponentPart exponent) :
    exponent.length ≤ exponentLength (exponent ++ tail) := by
  cases legal with
  | absent => exact Nat.zero_le _
  | @present mark sign digits marked signed some =>
    have counted := digits_covered digits tail some.2
    have nonempty := List.length_pos_of_ne_nil some.1
    simp only [List.cons_append, List.append_assoc, exponentLength, Bool.or_eq_true,
      decide_eq_true_eq, if_pos marked, sign_counted sign digits tail signed some,
      List.drop_left]
    split
    · omega
    · simp only [List.length_cons, List.length_append]
      omega

/-- Whatever parts a number has, at least as much is taken. -/
theorem unsigned_covered (whole fraction exponent tail : List Char)
    (wholeLegal : WholePart whole) (fractionLegal : FractionPart fraction)
    (exponentLegal : ExponentPart exponent) :
    whole.length + (fraction.length + exponent.length) ≤
      unsignedLength (whole ++ (fraction ++ (exponent ++ tail))) := by
  have wholeCounted := whole_covered whole (fraction ++ (exponent ++ tail)) wholeLegal
  have found : wholeLength (whole ++ (fraction ++ (exponent ++ tail))) ≠ 0 := by
    obtain ⟨c, rest, rfl, _⟩ := wholePart_start whole wholeLegal
    rw [List.length_cons] at wholeCounted
    omega
  rw [unsignedLength_eq _ found]
  by_cases last : exponent = []
  · subst last
    cases fractionLegal with
    | absent =>
      simp only [List.length_nil]
      omega
    | @present digits some =>
      -- The point ends the whole part.
      have ends : Clear isDigit ('.' :: digits ++ ([] ++ tail)) :=
        (clear_cons _ _ _).mpr (by decide)
      have covered := fraction_covered ('.' :: digits) ([] ++ tail) (.present some)
      rw [wholeLength_complete whole _ wholeLegal ends, List.drop_left]
      simp only [List.length_nil]
      omega
  · -- The exponent mark ends the fraction, and one of the two ends the whole part.
    have digitEnds : Clear isDigit (exponent ++ tail) :=
      clear_of_exponent isDigit exponent tail exponentLegal last (by decide) (by decide)
    have pointEnds : Clear (· = '.') (exponent ++ tail) :=
      clear_of_exponent (· = '.') exponent tail exponentLegal last (by decide) (by decide)
    have wholeEnds := clear_fraction fraction _ fractionLegal digitEnds
    have covered := exponent_covered exponent tail exponentLegal
    rw [wholeLength_complete whole _ wholeLegal wholeEnds, List.drop_left,
      fractionLength_complete fraction _ fractionLegal digitEnds pointEnds, drop_both]
    omega

/-! ## No lexeme is cut short -/

theorem number_covered (image tail : List Char) (legal : NumberImage image) :
    image.length ≤ numberLength (image ++ tail) := by
  obtain ⟨sign, whole, fraction, exponent, signed, wholeLegal, fractionLegal, exponentLegal,
    rfl⟩ := legal
  have covered := unsigned_covered whole fraction exponent tail wholeLegal fractionLegal
    exponentLegal
  obtain ⟨c, others, rfl, digit⟩ := wholePart_start whole wholeLegal
  simp only [List.cons_append] at covered
  rcases signed with rfl | rfl
  · have notMinus : c ≠ '-' := by
      rintro rfl
      simp [isDigit] at digit
    simp only [List.cons_append, List.nil_append, List.append_assoc, numberLength,
      if_neg notMinus, List.length_cons, List.length_append] at covered ⊢
    omega
  · simp only [List.cons_append, List.nil_append, List.append_assoc, numberLength, if_true,
      List.length_cons, List.length_append] at covered ⊢
    split
    · omega
    · omega

theorem word_covered (image tail : List Char) (legal : WordImage image) :
    image.length ≤ wordLength (image ++ tail) := by
  obtain ⟨c, others, rfl, start, parts⟩ := legal
  simp only [← isWordStart_iff, ← isWordPart_iff] at start parts
  rw [List.cons_append, wordLength, if_pos start, List.takeWhile_append_of_pos parts]
  simp

theorem numberLength_le (text : List Char) : numberLength text ≤ text.length := by
  by_cases found : numberLength text = 0
  · omega
  · obtain ⟨image, rest, _, rfl, counted⟩ := numberLength_sound text found
    simp [counted]

theorem wordLength_le (text : List Char) : wordLength text ≤ text.length := by
  by_cases found : wordLength text = 0
  · omega
  · obtain ⟨image, rest, _, rfl, counted⟩ := wordLength_sound text found
    simp [counted]

end Pattern

namespace Token

/-- The tokens with a fixed spelling. -/
def literals : List Token :=
  [.load, .glob, .boolean true, .boolean false, .comma, .leftBracket, .rightBracket,
    .leftParen, .rightParen, .leftBrace, .rightBrace, .equals, .colon]

theorem mem_pattern_of_legal (lexeme : Token) (legal : lexeme.Legal) :
    lexeme.text.toList ∈ lexeme.pattern := by
  cases lexeme with
  | string raw => exact (Pattern.stringImage_iff _).mp legal
  | number raw => exact (Pattern.numberImage_iff _).mp legal
  | identifier name => exact (Pattern.wordImage_iff _).mp legal.1
  | _ => exact Pattern.exact_mem _

/-- What a kind of token may look like is a string, a number, a word or a mark. -/
theorem mem_pattern_cases (lexeme : Token) (image : List Char)
    (member : image ∈ lexeme.pattern) :
    Pattern.StringImage image ∨ Pattern.NumberImage image ∨ Pattern.WordImage image ∨
      image.length = 1 := by
  have keyword (word : String) (known : word ∈ keywords) (same : image ∈ Pattern.exact word) :
      Pattern.WordImage image :=
    (Pattern.mem_exact _ _).mp same ▸ Piece.keyword_wordImage known
  have mark (text : String) (single : text.toList.length = 1)
      (same : image ∈ Pattern.exact text) : image.length = 1 := by
    rw [(Pattern.mem_exact _ _).mp same, single]
  cases lexeme with
  | string raw => exact .inl ((Pattern.stringImage_iff _).mpr member)
  | number raw => exact .inr (.inl ((Pattern.numberImage_iff _).mpr member))
  | identifier name => exact .inr (.inr (.inl ((Pattern.wordImage_iff _).mpr member)))
  | load => exact .inr (.inr (.inl (keyword "load" (by decide) member)))
  | glob => exact .inr (.inr (.inl (keyword "glob" (by decide) member)))
  | boolean value =>
    refine .inr (.inr (.inl ?_))
    cases value with
    | true => exact keyword "True" (by decide) member
    | false => exact keyword "False" (by decide) member
  | _ => exact .inr (.inr (.inr (mark _ rfl member)))

/-- A legal token is told by its text alone. -/
theorem Legal.ext {first second : Token} (legal : first.Legal) (other : second.Legal)
    (same : first.text = second.text) : first = second := by
  have scanned := (legal_iff first).mp legal
  rw [same, (legal_iff second).mp other] at scanned
  simpa using scanned.symm

theorem literals_legal : ∀ literal ∈ literals, literal.Legal := by
  simp [literals, Legal]

end Token

namespace Piece

/-! ## The piece at the front is the longest -/

theorem first_of_word (c : Char) (rest : List Char) (start : Pattern.isWordStart c = true) :
    first c rest = .token (.ofWord
      (String.ofList ((c :: rest).take (Pattern.wordLength (c :: rest))))) := by
  obtain ⟨noBlank, noQuote⟩ := wordStart_not_blank c start
  have some : Pattern.wordLength (c :: rest) ≠ 0 := by
    simp [Pattern.wordLength, start]
  unfold first
  rw [if_neg (by simp [noBlank]), if_neg noQuote]
  split
  · contradiction
  · contradiction
  · rfl

theorem first_of_number (c : Char) (rest : List Char)
    (start : c = '-' ∨ Pattern.isDigit c = true)
    (some : Pattern.numberLength (c :: rest) ≠ 0) :
    first c rest = .token (.number
      (String.ofList ((c :: rest).take (Pattern.numberLength (c :: rest))))) := by
  have apart : Pattern.isBlank c = false ∧ c ≠ '"' ∧ Pattern.isWordStart c = false := by
    rcases start with rfl | digit
    · decide
    · exact ⟨(digit_not_blank c digit).1, (digit_not_blank c digit).2,
        digit_not_wordStart c digit⟩
  obtain ⟨noBlank, noQuote, noWord⟩ := apart
  have noLength : Pattern.wordLength (c :: rest) = 0 := by
    simp [Pattern.wordLength, noWord]
  simp [first, noBlank, noQuote, noLength]

/-- No lexeme of any kind at the front of a text is longer than the token taken there. -/
theorem first_longest (c : Char) (rest : List Char) (lexeme other : Token)
    (found : first c rest = .token lexeme) (longer : List Char)
    (begins : longer <+: c :: rest) (member : longer ∈ other.pattern) :
    longer.length ≤ lexeme.text.toList.length := by
  obtain ⟨tail, whole⟩ := begins
  rcases other.mem_pattern_cases longer member with string | number | word | single
  · obtain ⟨body, legal, rfl⟩ := string
    simp only [List.cons_append, List.append_assoc, List.nil_append] at whole
    obtain ⟨rfl, rfl⟩ := List.cons.inj whole
    rw [first_string body tail legal] at found
    cases found
    simp [Token.text]
  · have covered := Pattern.number_covered longer tail number
    obtain ⟨d, others, rfl⟩ : ∃ d others, longer = d :: others := by
      obtain ⟨sign, part, _, _, signed, wholeLegal, _, _, rfl⟩ := number
      obtain ⟨d, others, rfl, _⟩ := Pattern.wholePart_start part wholeLegal
      rcases signed with rfl | rfl <;> exact ⟨_, _, rfl⟩
    have start := numberImage_start d others number
    rw [List.cons_append] at whole covered
    obtain ⟨rfl, rfl⟩ := List.cons.inj whole
    have some : Pattern.numberLength (d :: (others ++ tail)) ≠ 0 := by
      rw [List.length_cons] at covered
      omega
    rw [first_of_number d _ start some] at found
    cases found
    rw [Token.text, String.toList_ofList,
      List.length_take_of_le (Pattern.numberLength_le _)]
    exact covered
  · have covered := Pattern.word_covered longer tail word
    obtain ⟨d, others, rfl, start, _⟩ := word
    rw [List.cons_append] at whole covered
    obtain ⟨rfl, rfl⟩ := List.cons.inj whole
    rw [first_of_word d _ ((Pattern.isWordStart_iff d).mpr start)] at found
    cases found
    rw [ofWord_text, String.toList_ofList, List.length_take_of_le (Pattern.wordLength_le _)]
    exact covered
  · have some : lexeme.text.toList ≠ [] := by
      have nonempty := (first_begins c rest).2
      rwa [found] at nonempty
    rw [single]
    exact List.length_pos_of_ne_nil some

/-! ## Where tokens are taken -/

theorem mem_lexemesFrom_cons (offset : Nat) (piece : Piece) (rest : List Piece)
    (lexeme : Lexeme) (member : lexeme ∈ lexemesFrom offset (piece :: rest)) :
    (piece = .token lexeme.token ∧ lexeme.start = offset ∧ lexeme.stop = offset + piece.size) ∨
      lexeme ∈ lexemesFrom (offset + piece.size) rest := by
  cases piece with
  | token taken =>
    rcases List.mem_cons.mp member with rfl | later
    · exact .inl ⟨rfl, rfl, rfl⟩
    · exact .inr later
  | blank c => exact .inr member
  | junk text => exact .inr member

/-- Every token is the piece at the front of what is left of the text at its place. -/
theorem lexemesFrom_first (text : List Char) (offset skip : Nat) (lexeme : Lexeme)
    (member : lexeme ∈ lexemesFrom offset (ofTextFrom skip text)) :
    ∃ front c rest, text = front ++ c :: rest ∧ skip ≤ front.length ∧
      first c rest = .token lexeme.token ∧
      lexeme.start = offset + byteLength (front.drop skip) ∧
      lexeme.stop = lexeme.start + byteLength lexeme.token.text.toList := by
  induction text generalizing offset skip with
  | nil => cases skip <;> cases member
  | cons c rest ih =>
    cases skip with
    | succ skip =>
      obtain ⟨front, d, others, rfl, skipped, taken, start, stop⟩ := ih offset skip member
      exact ⟨c :: front, d, others, rfl, Nat.succ_le_succ skipped, taken, start, stop⟩
    | zero =>
      rw [ofTextFrom] at member
      rcases mem_lexemesFrom_cons _ _ _ _ member with ⟨taken, start, stop⟩ | later
      · refine ⟨[], c, rest, rfl, Nat.zero_le _, taken, start, ?_⟩
        rw [stop, start, taken]
        rfl
      · obtain ⟨front, d, others, rfl, skipped, taken, start, stop⟩ := ih _ _ later
        refine ⟨c :: front, d, others, rfl, Nat.zero_le _, taken, ?_, stop⟩
        -- The piece in front ends inside what stands in front of the token.
        have begins : (first c (front ++ d :: others)).chars <+: c :: front := by
          refine List.prefix_of_prefix_length_le (first_begins c _).1
            (List.prefix_append (c :: front) (d :: others)) ?_
          rw [List.length_cons]
          omega
        obtain ⟨more, split⟩ := begins
        have behind : front.drop ((first c (front ++ d :: others)).chars.length - 1) = more := by
          obtain ⟨e, image, written⟩ :=
            List.exists_cons_of_ne_nil (first_begins c (front ++ d :: others)).2
          rw [written] at split ⊢
          obtain ⟨rfl, rfl⟩ := List.cons.inj split
          simp
        rw [start, behind, List.drop_zero, ← split, byteLength_append, size]
        omega

end Piece

/-- Tokens are longest matches, and fixed spellings win ties.  The text of a token stands
at its place and is one of its kind; no longer text at that place is one of any kind; and
a text that is the spelling of a literal, above all of `load`, `glob`, `True` or `False`,
is that literal. -/
theorem lexeme_longest (source : String) (lexeme : Lexeme)
    (member : lexeme ∈ tokenizeWithSpans source) :
    (∃ front back : String, source = front ++ lexeme.token.text ++ back ∧
      lexeme.start = front.utf8ByteSize ∧
      lexeme.stop = lexeme.start + lexeme.token.text.utf8ByteSize ∧
      ∀ longer : String, longer.toList <+: (lexeme.token.text ++ back).toList →
        lexeme.token.text.length < longer.length →
          ∀ other : Token, longer.toList ∉ other.pattern) ∧
    lexeme.token.text.toList ∈ lexeme.token.pattern ∧
    ∀ literal ∈ Token.literals, lexeme.token.text = literal.text → lexeme.token = literal := by
  obtain ⟨front, c, rest, whole, -, taken, start, stop⟩ :=
    Piece.lexemesFrom_first source.toList 0 0 lexeme member
  have legal : lexeme.token.Legal := Piece.first_token_legal c rest _ taken
  refine ⟨?_, lexeme.token.mem_pattern_of_legal legal, ?_⟩
  · obtain ⟨back, split⟩ : lexeme.token.text.toList <+: c :: rest := by
      have begins := (Piece.first_begins c rest).1
      rwa [taken] at begins
    refine ⟨String.ofList front, String.ofList back, ?_, ?_, ?_, ?_⟩
    · rw [String.append_assoc, ← String.toList_inj, String.toList_append, String.toList_append,
        String.toList_ofList, String.toList_ofList, split, whole]
    · rw [start, List.drop_zero, byteLength_eq, Nat.zero_add]
    · rw [stop, byteLength_eq, String.ofList_toList]
    · intro longer begins more other matched
      rw [String.toList_append, String.toList_ofList, split] at begins
      have covered := Piece.first_longest c rest _ other taken _ begins matched
      rw [String.length_toList, String.length_toList] at covered
      omega
  · intro literal known same
    exact legal.ext (Token.literals_legal literal known) same

/-- An exponent without digits is left over, and the number ends in front of it. -/
theorem lexeme_longest_exponent :
    (⟨.number "1.5", 2, 5⟩ : Lexeme) ∈ tokenizeWithSpans "a 1.5e+" ∧
      (∃ front back : String, "a 1.5e+" = front ++ "1.5" ++ back ∧ 2 = front.utf8ByteSize ∧
        ∀ longer : String, longer.toList <+: ("1.5" ++ back).toList →
          "1.5".length < longer.length → ∀ other : Token, longer.toList ∉ other.pattern) ∧
      "1.5".toList ∈ (Token.number "1.5").pattern := by
  have member : (⟨.number "1.5", 2, 5⟩ : Lexeme) ∈ tokenizeWithSpans "a 1.5e+" := by
    decide +kernel
  obtain ⟨⟨front, back, whole, start, -, longest⟩, kind, -⟩ := lexeme_longest _ _ member
  exact ⟨member, ⟨front, back, whole, start, longest⟩, kind⟩

end BuildLang
