import BuildLang.Proofs.Token.Image
import Mathlib.Computability.Language

/-!
# The catalogue of lexemes

Each kind of lexeme as a regular language, put together from single characters and fixed
texts.  An image of a kind is nothing but a word of its language.
-/

set_option autoImplicit false

namespace BuildLang

namespace Pattern

open scoped Computability

/-! ## Parts of patterns -/

/-- The text itself and nothing else. -/
def exact (text : String) : Language Char :=
  {text.toList}

/-- One of the listed characters. -/
def oneOf (listed : List Char) : Language Char :=
  {text | ∃ c ∈ listed, text = [c]}

/-- One character that is not listed. -/
def noneOf (listed : List Char) : Language Char :=
  {text | ∃ c, c ∉ listed ∧ text = [c]}

def perhaps (part : Language Char) : Language Char :=
  1 + part

/-- Once or more often. -/
def repeated (part : Language Char) : Language Char :=
  part * part∗

theorem mem_exact (text : String) (word : List Char) :
    word ∈ exact text ↔ word = text.toList :=
  Iff.rfl

theorem mem_oneOf (listed word : List Char) : word ∈ oneOf listed ↔ ∃ c ∈ listed, word = [c] :=
  Iff.rfl

theorem mem_noneOf (listed word : List Char) :
    word ∈ noneOf listed ↔ ∃ c, c ∉ listed ∧ word = [c] :=
  Iff.rfl

theorem mem_perhaps (part : Language Char) (word : List Char) :
    word ∈ perhaps part ↔ word = [] ∨ word ∈ part := by
  rw [perhaps, Language.mem_add, Language.mem_one]

theorem exact_mem (text : String) : text.toList ∈ exact text :=
  rfl

theorem oneOf_mem {listed : List Char} {c : Char} (member : c ∈ listed) : [c] ∈ oneOf listed :=
  ⟨c, member, rfl⟩

theorem mem_exact_mul (text : String) (others : Language Char) (word : List Char) :
    word ∈ exact text * others ↔ ∃ rest ∈ others, word = text.toList ++ rest := by
  rw [Language.mem_mul]
  constructor
  · rintro ⟨first, rfl, rest, member, rfl⟩
    exact ⟨rest, member, rfl⟩
  · rintro ⟨rest, member, rfl⟩
    exact ⟨_, exact_mem text, rest, member, rfl⟩

theorem mem_oneOf_mul (listed : List Char) (others : Language Char) (word : List Char) :
    word ∈ oneOf listed * others ↔ ∃ c ∈ listed, ∃ rest ∈ others, word = c :: rest := by
  rw [Language.mem_mul]
  constructor
  · rintro ⟨_, ⟨c, legal, rfl⟩, rest, member, rfl⟩
    exact ⟨c, legal, rest, member, rfl⟩
  · rintro ⟨c, legal, rest, member, rfl⟩
    exact ⟨[c], oneOf_mem legal, rest, member, rfl⟩

theorem append_mem_kstar {part : Language Char} {first others : List Char}
    (head : first ∈ part) (tail : others ∈ part∗) : first ++ others ∈ part∗ := by
  rw [← Language.one_add_self_mul_kstar_eq_kstar]
  exact .inr (Language.append_mem_mul head tail)

theorem mem_kstar_oneOf (listed word : List Char) :
    word ∈ (oneOf listed)∗ ↔ ∀ c ∈ word, c ∈ listed := by
  constructor
  · intro member
    obtain ⟨parts, rfl, each⟩ := Language.mem_kstar.mp member
    intro c inside
    obtain ⟨part, known, found⟩ := List.mem_flatten.mp inside
    obtain ⟨d, legal, rfl⟩ := (mem_oneOf _ _).mp (each part known)
    obtain rfl := List.mem_singleton.mp found
    exact legal
  · intro inside
    induction word with
    | nil => exact Language.nil_mem_kstar _
    | cons c rest ih =>
      have tail := ih fun d member => inside d (List.mem_cons_of_mem c member)
      exact append_mem_kstar (oneOf_mem (inside c (by simp))) tail

theorem mem_digits (word : List Char) : word ∈ repeated (oneOf decimals) ↔ Digits word := by
  rw [repeated, Language.mem_mul]
  constructor
  · rintro ⟨first, head, others, tail, rfl⟩
    obtain ⟨c, digit, rfl⟩ := (mem_oneOf _ _).mp head
    refine ⟨by simp, ?_⟩
    simpa [digit] using (mem_kstar_oneOf _ _).mp tail
  · rintro ⟨some, inside⟩
    obtain ⟨c, rest, rfl⟩ := List.exists_cons_of_ne_nil some
    refine ⟨[c], oneOf_mem (inside c (by simp)), rest, ?_, rfl⟩
    exact (mem_kstar_oneOf _ _).mpr fun d member => inside d (List.mem_cons_of_mem c member)

/-! ## Strings -/

def fourDigits : Language Char :=
  oneOf hexadecimals * (oneOf hexadecimals * (oneOf hexadecimals * oneOf hexadecimals))

theorem mem_fourDigits (word : List Char) :
    word ∈ fourDigits ↔ ∃ a b c d, a ∈ hexadecimals ∧ b ∈ hexadecimals ∧
      c ∈ hexadecimals ∧ d ∈ hexadecimals ∧ word = [a, b, c, d] := by
  simp only [fourDigits, mem_oneOf_mul, mem_oneOf]
  constructor
  · rintro ⟨a, first, _, ⟨b, second, _, ⟨c, third, _, ⟨d, fourth, rfl⟩, rfl⟩, rfl⟩, rfl⟩
    exact ⟨a, b, c, d, first, second, third, fourth, rfl⟩
  · rintro ⟨a, b, c, d, first, second, third, fourth, rfl⟩
    exact ⟨a, first, _, ⟨b, second, _, ⟨c, third, _, ⟨d, fourth, rfl⟩, rfl⟩, rfl⟩, rfl⟩

/-- One character of a string, as it is written. -/
def stringPart : Language Char :=
  noneOf specials + exact "\\" * oneOf escapes + exact "\\u" * fourDigits

def stringLanguage : Language Char :=
  exact "\"" * (stringPart∗ * exact "\"")

theorem StringBody.mem {body : List Char} (legal : StringBody body) : body ∈ stringPart∗ := by
  induction legal with
  | nil => exact Language.nil_mem_kstar _
  | @plain c rest plain _ ih =>
    have part : [c] ∈ stringPart := .inl (.inl ⟨c, plain, rfl⟩)
    exact append_mem_kstar part ih
  | @escape c rest known _ ih =>
    have part : ['\\', c] ∈ stringPart :=
      .inl (.inr ((mem_exact_mul _ _ _).mpr ⟨[c], oneOf_mem known, rfl⟩))
    exact append_mem_kstar part ih
  | @unicode a b c d rest first second third fourth _ ih =>
    have digits : [a, b, c, d] ∈ fourDigits :=
      (mem_fourDigits _).mpr ⟨a, b, c, d, first, second, third, fourth, rfl⟩
    have part : ['\\', 'u', a, b, c, d] ∈ stringPart :=
      .inr ((mem_exact_mul _ _ _).mpr ⟨_, digits, rfl⟩)
    exact append_mem_kstar part ih

theorem StringBody.of_part {part body : List Char} (member : part ∈ stringPart)
    (legal : StringBody body) : StringBody (part ++ body) := by
  rw [stringPart, Language.mem_add, Language.mem_add, mem_noneOf, mem_exact_mul, mem_exact_mul]
    at member
  rcases member with (⟨c, plain, rfl⟩ | ⟨_, ⟨c, known, rfl⟩, rfl⟩) | ⟨_, digits, rfl⟩
  · exact .plain plain legal
  · exact .escape known legal
  · obtain ⟨a, b, c, d, first, second, third, fourth, rfl⟩ := (mem_fourDigits _).mp digits
    exact .unicode first second third fourth legal

theorem stringBody_iff (body : List Char) : StringBody body ↔ body ∈ stringPart∗ := by
  constructor
  · exact StringBody.mem
  · intro member
    obtain ⟨parts, rfl, each⟩ := Language.mem_kstar.mp member
    clear member
    induction parts with
    | nil => exact .nil
    | cons part others ih =>
      have inner : ∀ other ∈ others, other ∈ stringPart :=
        fun other known => each other (List.mem_cons_of_mem part known)
      exact .of_part (each part (by simp)) (ih inner)

theorem stringImage_iff (image : List Char) : StringImage image ↔ image ∈ stringLanguage := by
  rw [stringLanguage, mem_exact_mul]
  constructor
  · rintro ⟨body, legal, rfl⟩
    have member := Language.append_mem_mul ((stringBody_iff body).mp legal) (exact_mem "\"")
    exact ⟨_, member, rfl⟩
  · rintro ⟨_, inner, rfl⟩
    obtain ⟨body, member, _, rfl, rfl⟩ := Language.mem_mul.mp inner
    exact ⟨body, (stringBody_iff body).mpr member, rfl⟩

/-! ## Numbers -/

/-- `0` or digits that start with another one -/
def wholeLanguage : Language Char :=
  exact "0" + oneOf "123456789".toList * (oneOf decimals)∗

/-- A point and digits, or nothing -/
def fractionLanguage : Language Char :=
  perhaps (exact "." * repeated (oneOf decimals))

/-- An exponent mark, a sign if any, and digits, or nothing -/
def exponentLanguage : Language Char :=
  perhaps ((exact "e" + exact "E") * perhaps (exact "+" + exact "-") * repeated (oneOf decimals))

def numberLanguage : Language Char :=
  perhaps (exact "-") * wholeLanguage * fractionLanguage * exponentLanguage

theorem nonzero_iff (c : Char) : c ∈ "123456789".toList ↔ c ≠ '0' ∧ c ∈ decimals := by
  constructor
  · intro member
    refine ⟨?_, List.mem_cons_of_mem '0' member⟩
    rintro rfl
    simp at member
  · rintro ⟨nonzero, digit⟩
    exact (List.mem_cons.mp digit).resolve_left nonzero

theorem wholePart_iff (word : List Char) : WholePart word ↔ word ∈ wholeLanguage := by
  rw [wholeLanguage, Language.mem_add, mem_oneOf_mul, mem_exact]
  constructor
  · intro legal
    cases legal with
    | zero => exact .inl rfl
    | @digits c rest nonzero first others =>
      exact .inr ⟨c, (nonzero_iff c).mpr ⟨nonzero, first⟩, rest,
        (mem_kstar_oneOf _ _).mpr others, rfl⟩
  · rintro (rfl | ⟨c, legal, rest, others, rfl⟩)
    · exact .zero
    · obtain ⟨nonzero, first⟩ := (nonzero_iff c).mp legal
      exact .digits nonzero first ((mem_kstar_oneOf _ _).mp others)

theorem fractionPart_iff (word : List Char) : FractionPart word ↔ word ∈ fractionLanguage := by
  rw [fractionLanguage, mem_perhaps, mem_exact_mul]
  constructor
  · intro legal
    cases legal with
    | absent => exact .inl rfl
    | present some => exact .inr ⟨_, (mem_digits _).mpr some, rfl⟩
  · rintro (rfl | ⟨digits, some, rfl⟩)
    · exact .absent
    · exact .present ((mem_digits _).mp some)

theorem exponentPart_iff (word : List Char) : ExponentPart word ↔ word ∈ exponentLanguage := by
  rw [exponentLanguage, mem_perhaps]
  constructor
  · intro legal
    cases legal with
    | absent => exact .inl rfl
    | @present mark sign digits marked signed some =>
      have markMember : [mark] ∈ exact "e" + exact "E" := by
        rcases marked with rfl | rfl
        · exact .inl rfl
        · exact .inr rfl
      have signMember : sign ∈ perhaps (exact "+" + exact "-") := by
        rcases signed with rfl | rfl | rfl
        · exact .inl rfl
        · exact .inr (.inl rfl)
        · exact .inr (.inr rfl)
      exact .inr (Language.append_mem_mul (a := mark :: sign)
        (Language.append_mem_mul markMember signMember) ((mem_digits _).mpr some))
  · rintro (rfl | ⟨_, ⟨_, marked, sign, signed, rfl⟩, digits, some, rfl⟩)
    · exact .absent
    · have signs : sign = [] ∨ sign = ['+'] ∨ sign = ['-'] := by
        rcases signed with rfl | rfl | rfl
        · exact .inl rfl
        · exact .inr (.inl rfl)
        · exact .inr (.inr rfl)
      rcases marked with rfl | rfl
      · exact .present (.inl rfl) signs ((mem_digits _).mp some)
      · exact .present (.inr rfl) signs ((mem_digits _).mp some)

theorem numberImage_iff (image : List Char) : NumberImage image ↔ image ∈ numberLanguage := by
  constructor
  · rintro ⟨sign, whole, fraction, exponent, signed, wholeLegal, fractionLegal, exponentLegal, rfl⟩
    have signMember : sign ∈ perhaps (exact "-") := by
      rcases signed with rfl | rfl
      · exact .inl rfl
      · exact .inr rfl
    have member := Language.append_mem_mul (Language.append_mem_mul (Language.append_mem_mul
      signMember ((wholePart_iff whole).mp wholeLegal))
      ((fractionPart_iff fraction).mp fractionLegal)) ((exponentPart_iff exponent).mp exponentLegal)
    rw [numberLanguage]
    simpa only [List.append_assoc] using member
  · rintro ⟨_, ⟨_, ⟨sign, signed, whole, wholeLegal, rfl⟩, fraction, fractionLegal, rfl⟩, exponent,
      exponentLegal, rfl⟩
    refine ⟨sign, whole, fraction, exponent, ?_, (wholePart_iff whole).mpr wholeLegal,
      (fractionPart_iff fraction).mpr fractionLegal, (exponentPart_iff exponent).mpr exponentLegal,
      by simp [List.append_assoc]⟩
    rcases signed with rfl | rfl
    · exact .inl rfl
    · exact .inr rfl

/-! ## Words -/

def wordLanguage : Language Char :=
  oneOf letters * (oneOf (letters ++ decimals))∗

theorem wordImage_iff (image : List Char) : WordImage image ↔ image ∈ wordLanguage := by
  rw [wordLanguage, mem_oneOf_mul]
  constructor
  · rintro ⟨c, rest, rfl, start, others⟩
    exact ⟨c, start, rest, (mem_kstar_oneOf _ _).mpr others, rfl⟩
  · rintro ⟨c, start, rest, others, rfl⟩
    exact ⟨c, rest, rfl, start, (mem_kstar_oneOf _ _).mp others⟩

end Pattern

/-- What a token of the same kind may look like. -/
def Token.pattern : Token → Language Char
  | .string _ => Pattern.stringLanguage
  | .number _ => Pattern.numberLanguage
  | .identifier _ => Pattern.wordLanguage
  | lexeme => Pattern.exact lexeme.text

end BuildLang
