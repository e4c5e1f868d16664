import BuildLang.Token.Piece

/-!
# Images

What a lexeme of each kind looks like, said without the scanner, and the proof
that the scanner reaches exactly to the end of an image: it neither stops inside
one nor runs on into a text that cannot continue it.
-/

set_option autoImplicit false

namespace BuildLang.Pattern

/-! ## Alphabets -/

/-- What may follow a backslash on its own. -/
def escapes : List Char :=
  ['"', '\\', '/', 'b', 'f', 'n', 'r', 't', 'v']

/-- What cannot stand in a string as it is. -/
def specials : List Char :=
  ['"', '\\', '\n', '\r']

def decimals : List Char :=
  "0123456789".toList

def hexadecimals : List Char :=
  "0123456789abcdefABCDEF".toList

/-- What a word may begin with. -/
def letters : List Char :=
  "abcdefghijklmnopqrstuvwxyzABCDEFGHIJKLMNOPQRSTUVWXYZ_".toList

/-- The characters from one to another. -/
def between (low high : Char) : List Char :=
  (List.range' low.toNat (high.toNat + 1 - low.toNat)).map Char.ofNat

theorem mem_between {low high c : Char} (above : low ≤ c) (below : c ≤ high) :
    c ∈ between low high := by
  have least : low.toNat ≤ c.toNat := above
  have most : c.toNat ≤ high.toNat := below
  exact List.mem_map.mpr ⟨c.toNat, List.mem_range'_1.mpr ⟨least, by omega⟩, Char.ofNat_toNat c⟩

theorem isEscape_iff (c : Char) : isEscape c = true ↔ c ∈ escapes := by
  simp [isEscape, escapes, or_assoc]

theorem isDigit_iff (c : Char) : isDigit c = true ↔ c ∈ decimals := by
  constructor
  · intro digit
    simp only [isDigit, Bool.and_eq_true, decide_eq_true_eq] at digit
    exact mem_between digit.1 digit.2
  · exact List.all_eq_true.mp (by decide : decimals.all isDigit = true) c

theorem isHexDigit_iff (c : Char) : isHexDigit c = true ↔ c ∈ hexadecimals := by
  have listed : between '0' '9' ++ (between 'a' 'f' ++ between 'A' 'F') = hexadecimals := by
    decide
  constructor
  · intro digit
    simp only [isHexDigit, isDigit, Bool.or_eq_true, Bool.and_eq_true, decide_eq_true_eq] at digit
    rw [← listed, List.mem_append, List.mem_append, ← or_assoc]
    exact digit.imp (.imp (fun both => mem_between both.1 both.2) fun both =>
      mem_between both.1 both.2) fun both => mem_between both.1 both.2
  · exact List.all_eq_true.mp (by decide : hexadecimals.all isHexDigit = true) c

theorem isWordStart_iff (c : Char) : isWordStart c = true ↔ c ∈ letters := by
  have listed : between 'a' 'z' ++ (between 'A' 'Z' ++ ['_']) = letters := by
    decide
  constructor
  · intro start
    simp only [isWordStart, Bool.or_eq_true, Bool.and_eq_true, decide_eq_true_eq] at start
    rw [← listed, List.mem_append, List.mem_append, ← or_assoc, List.mem_singleton]
    exact start.imp (.imp (fun both => mem_between both.1 both.2) fun both =>
      mem_between both.1 both.2) id
  · exact List.all_eq_true.mp (by decide : letters.all isWordStart = true) c

theorem isWordPart_iff (c : Char) : isWordPart c = true ↔ c ∈ letters ++ decimals := by
  rw [isWordPart, Bool.or_eq_true, isWordStart_iff, isDigit_iff, List.mem_append]

theorem not_special_iff (c : Char) :
    c ∉ specials ↔ c ≠ '"' ∧ c ≠ '\\' ∧ isLineEnd c = false := by
  simp [specials, isLineEnd]

/-! ## Images -/

/-- What may stand between the quotes of a string. -/
inductive StringBody : List Char → Prop where
  | nil : StringBody []
  | plain {c : Char} {rest : List Char} (plain : c ∉ specials) (tail : StringBody rest) :
      StringBody (c :: rest)
  | escape {c : Char} {rest : List Char} (known : c ∈ escapes)
      (tail : StringBody rest) : StringBody ('\\' :: c :: rest)
  | unicode {a b c d : Char} {rest : List Char} (first : a ∈ hexadecimals)
      (second : b ∈ hexadecimals) (third : c ∈ hexadecimals)
      (fourth : d ∈ hexadecimals) (tail : StringBody rest) :
      StringBody ('\\' :: 'u' :: a :: b :: c :: d :: rest)

def StringImage (image : List Char) : Prop :=
  ∃ body, StringBody body ∧ image = '"' :: (body ++ ['"'])

def Digits (text : List Char) : Prop :=
  text ≠ [] ∧ ∀ c ∈ text, c ∈ decimals

/-- A lone zero, or digits that start with another one. -/
inductive WholePart : List Char → Prop where
  | zero : WholePart ['0']
  | digits {c : Char} {rest : List Char} (nonzero : c ≠ '0') (first : c ∈ decimals)
      (others : ∀ d ∈ rest, d ∈ decimals) : WholePart (c :: rest)

inductive FractionPart : List Char → Prop where
  | absent : FractionPart []
  | present {digits : List Char} (some : Digits digits) : FractionPart ('.' :: digits)

inductive ExponentPart : List Char → Prop where
  | absent : ExponentPart []
  | present {mark : Char} {sign digits : List Char} (marked : mark = 'e' ∨ mark = 'E')
      (signed : sign = [] ∨ sign = ['+'] ∨ sign = ['-']) (some : Digits digits) :
      ExponentPart (mark :: (sign ++ digits))

def NumberImage (image : List Char) : Prop :=
  ∃ sign whole fraction exponent, (sign = [] ∨ sign = ['-']) ∧ WholePart whole ∧
    FractionPart fraction ∧ ExponentPart exponent ∧
    image = sign ++ (whole ++ (fraction ++ exponent))

def WordImage (image : List Char) : Prop :=
  ∃ c rest, image = c :: rest ∧ c ∈ letters ∧ ∀ d ∈ rest, d ∈ letters ++ decimals

theorem wordImage_of_parts {image : List Char} {c : Char} {rest : List Char}
    (written : image = c :: rest) (start : isWordStart c = true)
    (parts : rest.all isWordPart = true) : WordImage image :=
  ⟨c, rest, written, (isWordStart_iff c).mp start, fun d inside =>
    (isWordPart_iff d).mp (List.all_eq_true.mp parts d inside)⟩

/-- A text that does not begin with a character of the given class. -/
def Clear (class_ : Char → Bool) (text : List Char) : Prop :=
  ∀ c ∈ text.head?, class_ c = false

theorem clear_nil (class_ : Char → Bool) : Clear class_ [] := by
  intro c found
  simp at found

theorem clear_cons (class_ : Char → Bool) (c : Char) (rest : List Char) :
    Clear class_ (c :: rest) ↔ class_ c = false := by
  simp [Clear]

theorem takeWhile_image (class_ : Char → Bool) (image rest : List Char)
    (inside : ∀ c ∈ image, class_ c = true) (clear : Clear class_ rest) :
    (image ++ rest).takeWhile class_ = image := by
  rw [List.takeWhile_append_of_pos inside]
  cases rest with
  | nil => simp
  | cons c rest =>
    have outside := (clear_cons class_ c rest).mp clear
    simp [outside]

/-- The run of a class at the front of a text, cut off. -/
theorem takeWhile_split (class_ : Char → Bool) (text : List Char) :
    text = text.takeWhile class_ ++ text.dropWhile class_ ∧
      ∀ c ∈ text.takeWhile class_, class_ c = true :=
  ⟨List.takeWhile_append_dropWhile.symm, List.all_eq_true.mp List.all_takeWhile⟩

/-! ## Strings -/

theorem stringReach_complete (body rest : List Char) (legal : StringBody body) :
    stringReach (body ++ '"' :: rest) = .closed (body.length + 1) := by
  induction legal with
  | nil => simp [stringReach]
  | @plain c tail plain _ ih =>
    obtain ⟨noQuote, noBackslash, inLine⟩ := (not_special_iff c).mp plain
    rw [List.cons_append, stringReach.eq_4]
    · simp [noQuote, noBackslash, inLine, ih, StringReach.grow]
    · intro a b d e others same
      exact absurd same noBackslash
    · intro escaped others same
      exact absurd same noBackslash
  | @escape c tail known _ ih =>
    have notUnicode : c ≠ 'u' := by
      rintro rfl
      simp [escapes] at known
    rw [List.cons_append, List.cons_append, stringReach.eq_3]
    · simp [(isEscape_iff c).mpr known, ih, StringReach.grow]
    · intro a b d e others same
      exact absurd same notUnicode
  | unicode first second third fourth _ ih =>
    rw [← isHexDigit_iff] at first second third fourth
    simp [stringReach, first, second, third, fourth, ih, StringReach.grow]

theorem StringReach.grow_closed (reach : StringReach) (more length : Nat)
    (closed : reach.grow more = .closed length) :
    ∃ inner, reach = .closed inner ∧ length = inner + more := by
  cases reach with
  | broken inner => simp [StringReach.grow] at closed
  | closed inner =>
    simp only [StringReach.grow, StringReach.closed.injEq] at closed
    exact ⟨inner, rfl, closed.symm⟩

theorem stringReach_sound (text : List Char) (length : Nat)
    (closed : stringReach text = .closed length) :
    ∃ body rest, StringBody body ∧ text = body ++ '"' :: rest ∧ length = body.length + 1 := by
  fun_induction stringReach text generalizing length with
  | case1 => simp at closed
  | case2 a b c d rest hex ih =>
    obtain ⟨inner, reach, rfl⟩ := StringReach.grow_closed _ _ _ closed
    obtain ⟨body, others, legal, rfl, rfl⟩ := ih inner reach
    simp only [Bool.and_eq_true, isHexDigit_iff] at hex
    obtain ⟨⟨⟨first, second⟩, third⟩, fourth⟩ := hex
    exact ⟨_, others, .unicode first second third fourth legal, by simp, by simp⟩
  | case3 => simp at closed
  | case4 escaped rest notUnicode known ih =>
    obtain ⟨inner, reach, rfl⟩ := StringReach.grow_closed _ _ _ closed
    obtain ⟨body, others, legal, rfl, rfl⟩ := ih inner reach
    exact ⟨_, others, .escape ((isEscape_iff escaped).mp known) legal, by simp, by simp⟩
  | case5 => simp at closed
  | case6 rest =>
    simp only [StringReach.closed.injEq] at closed
    exact ⟨[], rest, .nil, by simp, by simp [← closed]⟩
  | case7 => simp at closed
  | case8 => simp at closed
  | case9 c rest _ _ noQuote noBackslash inLine ih =>
    obtain ⟨inner, reach, rfl⟩ := StringReach.grow_closed _ _ _ closed
    obtain ⟨body, others, legal, rfl, rfl⟩ := ih inner reach
    have plain := (not_special_iff c).mpr ⟨noQuote, noBackslash, by simpa using inLine⟩
    exact ⟨_, others, .plain plain legal, by simp, by simp⟩

/-! ## Words -/

theorem wordLength_complete (image rest : List Char) (legal : WordImage image)
    (clear : Clear isWordPart rest) : wordLength (image ++ rest) = image.length := by
  obtain ⟨c, others, rfl, start, parts⟩ := legal
  simp only [← isWordStart_iff, ← isWordPart_iff] at start parts
  simp [wordLength, start, takeWhile_image isWordPart others rest parts clear]

theorem wordLength_sound (text : List Char) (found : wordLength text ≠ 0) :
    ∃ image rest, WordImage image ∧ text = image ++ rest ∧ wordLength text = image.length := by
  cases text with
  | nil => simp [wordLength] at found
  | cons c rest =>
    by_cases start : isWordStart c = true
    · obtain ⟨split, inside⟩ := takeWhile_split isWordPart rest
      have legal : WordImage (c :: rest.takeWhile isWordPart) :=
        ⟨c, _, rfl, (isWordStart_iff c).mp start, fun d found =>
          (isWordPart_iff d).mp (inside d found)⟩
      refine ⟨c :: rest.takeWhile isWordPart, rest.dropWhile isWordPart, legal, ?_, ?_⟩
      · rw [List.cons_append, ← split]
      · simp [wordLength, start]
    · simp [wordLength, start] at found

/-! ## Numbers -/

theorem digitsLength_complete (digits rest : List Char) (inside : ∀ c ∈ digits, c ∈ decimals)
    (clear : Clear isDigit rest) : digitsLength (digits ++ rest) = digits.length := by
  simp only [← isDigit_iff] at inside
  rw [digitsLength, takeWhile_image isDigit digits rest inside clear]

theorem digitsLength_sound (text : List Char) :
    ∃ digits rest, (∀ c ∈ digits, c ∈ decimals) ∧ text = digits ++ rest ∧
      digitsLength text = digits.length := by
  obtain ⟨split, inside⟩ := takeWhile_split isDigit text
  simp only [isDigit_iff] at inside
  exact ⟨_, _, inside, split, rfl⟩

theorem wholeLength_complete (whole rest : List Char) (legal : WholePart whole)
    (clear : Clear isDigit rest) : wholeLength (whole ++ rest) = whole.length := by
  cases legal with
  | zero => simp [wholeLength]
  | @digits c others nonzero first parts =>
    have inside : ∀ d ∈ c :: others, d ∈ decimals := List.forall_mem_cons.mpr ⟨first, parts⟩
    have counted := digitsLength_complete (c :: others) rest inside clear
    simpa [wholeLength, nonzero] using counted

theorem wholeLength_sound (text : List Char) (found : wholeLength text ≠ 0) :
    ∃ whole rest, WholePart whole ∧ text = whole ++ rest ∧ wholeLength text = whole.length := by
  cases text with
  | nil => simp [wholeLength] at found
  | cons c others =>
    by_cases zero : c = '0'
    · subst zero
      exact ⟨['0'], others, .zero, rfl, by simp [wholeLength]⟩
    · obtain ⟨digits, rest, inside, split, counted⟩ := digitsLength_sound (c :: others)
      simp only [wholeLength, if_neg zero] at found ⊢
      cases digits with
      | nil => exact absurd (by simpa using counted) found
      | cons d digits =>
        obtain ⟨rfl, rfl⟩ : c = d ∧ others = digits ++ rest := by simpa using split
        refine ⟨c :: digits, rest, .digits zero (inside c (by simp)) ?_, rfl, counted⟩
        intro d member
        exact inside d (by simp [member])

theorem fractionLength_complete (fraction rest : List Char) (legal : FractionPart fraction)
    (noDigit : Clear isDigit rest) (noPoint : Clear (· = '.') rest) :
    fractionLength (fraction ++ rest) = fraction.length := by
  cases legal with
  | absent =>
    cases rest with
    | nil => rfl
    | cons c others =>
      have different : c ≠ '.' := by simpa [clear_cons] using noPoint
      simp [fractionLength, different]
  | @present digits some =>
    have counted := digitsLength_complete digits rest some.2 noDigit
    obtain ⟨count, size⟩ := Nat.exists_eq_succ_of_ne_zero (mt List.length_eq_zero_iff.mp some.1)
    simp [fractionLength, counted, size]

theorem fractionLength_sound (text : List Char) :
    ∃ fraction rest, FractionPart fraction ∧ text = fraction ++ rest ∧
      fractionLength text = fraction.length := by
  cases text with
  | nil => exact ⟨[], [], .absent, rfl, rfl⟩
  | cons c others =>
    by_cases point : c = '.'
    · subst point
      obtain ⟨digits, rest, inside, split, counted⟩ := digitsLength_sound others
      cases digits with
      | nil => exact ⟨[], _, .absent, rfl, by simp [fractionLength, counted]⟩
      | cons d digits =>
        refine ⟨'.' :: d :: digits, rest, .present ⟨by simp, inside⟩, by simp [split], ?_⟩
        simp [fractionLength, counted]
    · exact ⟨[], _, .absent, rfl, by simp [fractionLength, point]⟩

theorem signLength_complete (sign rest : List Char)
    (signed : sign = [] ∨ sign = ['+'] ∨ sign = ['-'])
    (noSign : Clear (fun c => c = '+' || c = '-') rest) :
    signLength (sign ++ rest) = sign.length := by
  rcases signed with rfl | rfl | rfl
  · cases rest with
    | nil => rfl
    | cons c others =>
      have different : (c = '+' || c = '-') = false := by simpa [clear_cons] using noSign
      simp_all [signLength]
  · simp [signLength]
  · simp [signLength]

theorem signLength_sound (text : List Char) :
    ∃ sign rest, (sign = [] ∨ sign = ['+'] ∨ sign = ['-']) ∧ text = sign ++ rest ∧
      signLength text = sign.length := by
  cases text with
  | nil => exact ⟨[], [], by simp, rfl, rfl⟩
  | cons c rest =>
    by_cases signed : c = '+' ∨ c = '-'
    · refine ⟨[c], rest, ?_, rfl, by simp [signLength, signed]⟩
      rcases signed with rfl | rfl <;> simp
    · exact ⟨[], c :: rest, by simp, rfl, by simp [signLength, signed]⟩

theorem isDigit_not_sign (c : Char) (digit : isDigit c = true) :
    (c = '+' || c = '-') = false := by
  cases signed : (c = '+' || c = '-') with
  | false => rfl
  | true =>
    have sign : c = '+' ∨ c = '-' := by simpa using signed
    rcases sign with rfl | rfl <;> simp [isDigit] at digit

theorem sign_counted (sign digits rest : List Char)
    (signed : sign = [] ∨ sign = ['+'] ∨ sign = ['-']) (some : Digits digits) :
    signLength (sign ++ (digits ++ rest)) = sign.length := by
  refine signLength_complete sign (digits ++ rest) signed ?_
  obtain ⟨d, others, rfl⟩ := List.exists_cons_of_ne_nil some.1
  exact (clear_cons _ _ _).mpr (isDigit_not_sign d ((isDigit_iff d).mpr (some.2 d (by simp))))

theorem exponentLength_complete (exponent rest : List Char) (legal : ExponentPart exponent)
    (noDigit : Clear isDigit rest) (noMark : Clear (fun c => c = 'e' || c = 'E') rest) :
    exponentLength (exponent ++ rest) = exponent.length := by
  cases legal with
  | absent =>
    cases rest with
    | nil => rfl
    | cons c others =>
      have different : (c = 'e' || c = 'E') = false := by simpa [clear_cons] using noMark
      simp_all [exponentLength]
  | @present mark sign digits marked signed some =>
    have signCounted := sign_counted sign digits rest signed some
    have counted := digitsLength_complete digits rest some.2 noDigit
    obtain ⟨count, size⟩ := Nat.exists_eq_succ_of_ne_zero (mt List.length_eq_zero_iff.mp some.1)
    simp only [List.cons_append, List.append_assoc, exponentLength, Bool.or_eq_true,
      decide_eq_true_eq, if_pos marked, signCounted, List.drop_left, counted, size]
    simp only [List.length_cons, List.length_append, size]
    omega

theorem exponentLength_sound (text : List Char) :
    ∃ exponent rest, ExponentPart exponent ∧ text = exponent ++ rest ∧
      exponentLength text = exponent.length := by
  cases text with
  | nil => exact ⟨[], [], .absent, rfl, rfl⟩
  | cons c others =>
    by_cases marked : c = 'e' ∨ c = 'E'
    · obtain ⟨sign, unsigned, signed, signSplit, signCounted⟩ := signLength_sound others
      obtain ⟨digits, rest, inside, split, counted⟩ := digitsLength_sound unsigned
      have afterSign : others.drop (signLength others) = unsigned := by
        rw [signCounted, signSplit, List.drop_left]
      cases digits with
      | nil =>
        refine ⟨[], _, .absent, rfl, ?_⟩
        simp [exponentLength, marked, afterSign, counted]
      | cons d digits =>
        refine ⟨c :: (sign ++ d :: digits), rest,
          .present marked signed ⟨by simp, inside⟩, by simp [signSplit, split], ?_⟩
        simp only [exponentLength, Bool.or_eq_true, decide_eq_true_eq, if_pos marked, afterSign,
          counted, List.length_cons, List.length_append]
        omega
    · exact ⟨[], _, .absent, rfl, by simp [exponentLength, marked]⟩

/-- What may follow a number: nothing that one of its parts could take. -/
structure AfterNumber (text : List Char) : Prop where
  noDigit : Clear isDigit text
  noPoint : Clear (· = '.') text
  noMark : Clear (fun c => c = 'e' || c = 'E') text

theorem clear_of_exponent (class_ : Char → Bool) (exponent rest : List Char)
    (legal : ExponentPart exponent) (some : exponent ≠ []) (lower : class_ 'e' = false)
    (upper : class_ 'E' = false) : Clear class_ (exponent ++ rest) := by
  cases legal with
  | absent => exact absurd rfl some
  | present marked _ _ =>
    rw [List.cons_append, clear_cons]
    rcases marked with rfl | rfl
    · exact lower
    · exact upper

theorem clear_exponent (class_ : Char → Bool) (exponent rest : List Char)
    (legal : ExponentPart exponent) (lower : class_ 'e' = false) (upper : class_ 'E' = false)
    (clear : Clear class_ rest) : Clear class_ (exponent ++ rest) := by
  by_cases last : exponent = []
  · subst last
    exact clear
  · exact clear_of_exponent class_ exponent rest legal last lower upper

/-- The point ends the whole part, and without a fraction what follows does. -/
theorem clear_fraction (fraction rest : List Char) (legal : FractionPart fraction)
    (clear : Clear isDigit rest) : Clear isDigit (fraction ++ rest) := by
  cases legal with
  | absent => exact clear
  | present some => exact (clear_cons _ _ _).mpr (by decide)

theorem unsignedLength_eq (text : List Char) (found : wholeLength text ≠ 0) :
    unsignedLength text = wholeLength text + fractionLength (text.drop (wholeLength text)) +
      exponentLength
        (text.drop (wholeLength text + fractionLength (text.drop (wholeLength text)))) := by
  unfold unsignedLength
  split
  · rename_i zero
    exact absurd zero found
  · rfl

theorem drop_both (first second rest : List Char) :
    (first ++ (second ++ rest)).drop (first.length + second.length) = rest := by
  rw [← List.drop_drop, List.drop_left, List.drop_left]

theorem unsignedLength_complete (whole fraction exponent rest : List Char)
    (wholeLegal : WholePart whole) (fractionLegal : FractionPart fraction)
    (exponentLegal : ExponentPart exponent) (after : AfterNumber rest) :
    unsignedLength (whole ++ (fraction ++ (exponent ++ rest))) =
      whole.length + (fraction.length + exponent.length) := by
  have digitEnds : Clear isDigit (exponent ++ rest) :=
    clear_exponent isDigit exponent rest exponentLegal (by decide) (by decide) after.noDigit
  have pointEnds : Clear (· = '.') (exponent ++ rest) :=
    clear_exponent (· = '.') exponent rest exponentLegal (by decide) (by decide) after.noPoint
  have wholeCounted := wholeLength_complete whole _ wholeLegal
    (clear_fraction fraction _ fractionLegal digitEnds)
  have fractionCounted := fractionLength_complete fraction _ fractionLegal digitEnds pointEnds
  have exponentCounted :=
    exponentLength_complete exponent rest exponentLegal after.noDigit after.noMark
  have found : wholeLength (whole ++ (fraction ++ (exponent ++ rest))) ≠ 0 := by
    rw [wholeCounted]
    cases wholeLegal <;> simp
  rw [unsignedLength_eq _ found, wholeCounted, List.drop_left, fractionCounted, drop_both,
    exponentCounted, Nat.add_assoc]

theorem unsignedLength_sound (text : List Char) (found : unsignedLength text ≠ 0) :
    ∃ whole fraction exponent rest, WholePart whole ∧ FractionPart fraction ∧
      ExponentPart exponent ∧ text = whole ++ (fraction ++ (exponent ++ rest)) ∧
      unsignedLength text = whole.length + (fraction.length + exponent.length) := by
  have wholeFound : wholeLength text ≠ 0 := by
    intro zero
    simp [unsignedLength, zero] at found
  obtain ⟨whole, behindWhole, wholeLegal, rfl, wholeCounted⟩ := wholeLength_sound text wholeFound
  obtain ⟨fraction, behindFraction, fractionLegal, rfl, fractionCounted⟩ :=
    fractionLength_sound behindWhole
  obtain ⟨exponent, rest, exponentLegal, rfl, exponentCounted⟩ :=
    exponentLength_sound behindFraction
  refine ⟨whole, fraction, exponent, rest, wholeLegal, fractionLegal, exponentLegal, rfl, ?_⟩
  rw [unsignedLength_eq _ wholeFound, wholeCounted, List.drop_left, fractionCounted, drop_both,
    exponentCounted, Nat.add_assoc]

theorem wholePart_start (whole : List Char) (legal : WholePart whole) :
    ∃ c rest, whole = c :: rest ∧ isDigit c = true := by
  cases legal with
  | zero => exact ⟨'0', [], rfl, by decide⟩
  | @digits c rest nonzero first others => exact ⟨c, rest, rfl, (isDigit_iff c).mpr first⟩

theorem numberLength_complete (image rest : List Char) (legal : NumberImage image)
    (after : AfterNumber rest) : numberLength (image ++ rest) = image.length := by
  obtain ⟨sign, whole, fraction, exponent, signed, wholeLegal, fractionLegal, exponentLegal,
    rfl⟩ := legal
  have counted := unsignedLength_complete whole fraction exponent rest wholeLegal fractionLegal
    exponentLegal after
  obtain ⟨c, others, rfl, digit⟩ := wholePart_start whole wholeLegal
  rcases signed with rfl | rfl
  · have notMinus : c ≠ '-' := by
      rintro rfl
      simp [isDigit] at digit
    simp only [List.cons_append, List.nil_append, List.append_assoc] at counted ⊢
    simp only [numberLength, if_neg notMinus, counted, List.length_cons, List.length_append]
    omega
  · simp only [List.cons_append, List.nil_append, List.append_assoc] at counted ⊢
    simp only [numberLength, if_true, counted, List.length_cons, List.length_append]
    split
    · omega
    · omega

theorem numberLength_sound (text : List Char) (found : numberLength text ≠ 0) :
    ∃ image rest, NumberImage image ∧ text = image ++ rest ∧
      numberLength text = image.length := by
  cases text with
  | nil => simp [numberLength] at found
  | cons c others =>
    by_cases minus : c = '-'
    · have unsignedFound : unsignedLength others ≠ 0 := by
        intro zero
        simp [numberLength, minus, zero] at found
      obtain ⟨whole, fraction, exponent, rest, wholeLegal, fractionLegal, exponentLegal, split,
        counted⟩ := unsignedLength_sound others unsignedFound
      refine ⟨_, rest, ⟨['-'], whole, fraction, exponent, .inr rfl, wholeLegal, fractionLegal,
        exponentLegal, rfl⟩, by simp [minus, split], ?_⟩
      simp only [numberLength, if_pos minus]
      rw [counted] at unsignedFound ⊢
      simp only [List.length_append, List.length_cons, List.length_nil]
      omega
    · simp only [numberLength, if_neg minus] at found ⊢
      obtain ⟨whole, fraction, exponent, rest, wholeLegal, fractionLegal, exponentLegal, split,
        counted⟩ := unsignedLength_sound (c :: others) found
      exact ⟨_, rest, ⟨[], whole, fraction, exponent, .inl rfl, wholeLegal, fractionLegal,
        exponentLegal, rfl⟩, by simp [split], by simp [counted]⟩

end BuildLang.Pattern
