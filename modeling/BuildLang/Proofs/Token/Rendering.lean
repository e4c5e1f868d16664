import BuildLang.Proofs.Token.Longest

/-!
# Rendered tokens

Tokens written one behind the other with blanks between them are scanned as the same
tokens, each at the bytes where its text was put.  Only two tokens that touch could
become one, so it does not matter what the texts are.
-/

set_option autoImplicit false

namespace BuildLang

/-- A token is legal if its text matches the pattern of its kind and it is no name that
a keyword takes. -/
theorem Token.legal_iff_pattern (lexeme : Token) :
    lexeme.Legal ↔ lexeme.text.toList ∈ lexeme.pattern ∧
      ∀ name, lexeme = .identifier name → name ∉ keywords := by
  constructor
  · intro legal
    refine ⟨lexeme.mem_pattern_of_legal legal, ?_⟩
    rintro name rfl
    exact legal.2
  · rintro ⟨matching, free⟩
    cases lexeme with
    | string raw => exact (Pattern.stringImage_iff _).mpr matching
    | number raw => exact (Pattern.numberImage_iff _).mpr matching
    | identifier name => exact ⟨(Pattern.wordImage_iff _).mpr matching, free name rfl⟩
    | _ => exact trivial

namespace Pattern

theorem blank_not_joining (c : Char) (blank : isBlank c = true) : isJoining c = false := by
  simp only [isBlank, Bool.or_eq_true, decide_eq_true_eq] at blank
  rcases blank with (((rfl | rfl) | rfl) | rfl) | rfl
  all_goals decide

theorem clear_blanks (blanks : List Char) (blank : ∀ c ∈ blanks, isBlank c = true) :
    Clear isJoining blanks := by
  intro c found
  exact blank_not_joining c (blank c (List.mem_of_mem_head? found))

end Pattern

namespace Piece

theorem ofText_blanks (blanks rest : List Char)
    (blank : ∀ c ∈ blanks, Pattern.isBlank c = true) :
    ofText (blanks ++ rest) = blanks.map Piece.blank ++ ofText rest := by
  induction blanks with
  | nil => rfl
  | cons c others ih =>
    have later := ih fun d member => blank d (List.mem_cons_of_mem c member)
    rw [List.cons_append, ofText_blank c _ (blank c List.mem_cons_self), later]
    rfl

theorem lexemesFrom_blanks (offset : Nat) (blanks : List Char) (rest : List Piece) :
    lexemesFrom offset (blanks.map Piece.blank ++ rest) =
      lexemesFrom (offset + byteLength blanks) rest := by
  induction blanks generalizing offset with
  | nil => rfl
  | cons c others ih =>
    have later := ih (offset + c.utf8Size)
    rw [Nat.add_assoc] at later
    exact later

end Piece

/-- A token with the blanks in front of it. -/
structure Spaced where
  gap : String
  token : Token

namespace Spaced

def text (item : Spaced) : String :=
  item.gap ++ item.token.text

/-- The lexemes of the tokens: each covers the bytes where its text stands behind
`front`, the gaps and the tokens before it. -/
def placed (front : String) : List Spaced → List Lexeme
  | [] => []
  | item :: rest =>
      ⟨item.token, (front ++ item.gap).utf8ByteSize, (front ++ item.text).utf8ByteSize⟩ ::
        placed (front ++ item.text) rest

def pieces (item : Spaced) : List Piece :=
  item.gap.toList.map Piece.blank ++ [.token item.token]

/-- The characters of some items and of the blanks behind the last one. -/
def chars (items : List Spaced) (tail : String) : List Char :=
  items.flatMap (fun item => item.text.toList) ++ tail.toList

theorem chars_cons (item : Spaced) (rest : List Spaced) (tail : String) :
    chars (item :: rest) tail =
      item.gap.toList ++ (item.token.text.toList ++ chars rest tail) := by
  simp [chars, text]

theorem clear_chars (items : List Spaced) (tail : String)
    (blank : ∀ item ∈ items, ∀ c ∈ item.gap.toList, Pattern.isBlank c = true)
    (ends : ∀ c ∈ tail.toList, Pattern.isBlank c = true)
    (parted : ∀ item ∈ items, item.gap ≠ "") :
    Pattern.Clear Pattern.isJoining (chars items tail) := by
  cases items with
  | nil => exact Pattern.clear_blanks tail.toList ends
  | cons item rest =>
    have some : item.gap.toList ≠ [] := by
      simpa using parted item List.mem_cons_self
    obtain ⟨c, others, gap⟩ := List.exists_cons_of_ne_nil some
    have first : Pattern.isBlank c = true := by
      apply blank item List.mem_cons_self
      rw [gap]
      exact List.mem_cons_self
    rw [chars_cons, gap, List.cons_append, Pattern.clear_cons]
    exact Pattern.blank_not_joining c first

theorem ofText_chars (items : List Spaced) (tail : String)
    (legal : ∀ item ∈ items, item.token.Legal)
    (blank : ∀ item ∈ items, ∀ c ∈ item.gap.toList, Pattern.isBlank c = true)
    (ends : ∀ c ∈ tail.toList, Pattern.isBlank c = true)
    (parted : ∀ item ∈ items.tail, item.gap ≠ "") :
    Piece.ofText (chars items tail) =
      items.flatMap pieces ++ tail.toList.map Piece.blank := by
  induction items with
  | nil =>
    have scanned := Piece.ofText_blanks tail.toList [] ends
    rw [List.append_nil] at scanned
    rw [chars, List.flatMap_nil, List.nil_append, scanned]
    exact List.append_nil _
  | cons item rest ih =>
    rw [List.forall_mem_cons] at legal blank
    -- What follows the token begins with a blank, if anything follows.
    have apart := clear_chars rest tail blank.2 ends parted
    have later := ih legal.2 blank.2 fun other member => parted other (List.mem_of_mem_tail member)
    rw [chars_cons, Piece.ofText_blanks _ _ blank.1,
      Piece.ofText_token _ _ legal.1 fun _ => apart, later, List.flatMap_cons]
    simp [pieces]

theorem lexemesFrom_pieces (front : String) (items : List Spaced) (blanks : List Char) :
    Piece.lexemesFrom front.utf8ByteSize (items.flatMap pieces ++ blanks.map Piece.blank) =
      placed front items := by
  induction items generalizing front with
  | nil =>
    have nothing := Piece.lexemesFrom_blanks front.utf8ByteSize blanks []
    rw [List.append_nil] at nothing
    exact nothing
  | cons item rest ih =>
    have size (text : String) : byteLength text.toList = text.utf8ByteSize := by
      rw [byteLength_eq, String.ofList_toList]
    have start : front.utf8ByteSize + byteLength item.gap.toList =
        (front ++ item.gap).utf8ByteSize := by
      rw [size, String.utf8ByteSize_append]
    have stop : (front ++ item.gap).utf8ByteSize + (Piece.token item.token).size =
        (front ++ item.text).utf8ByteSize := by
      have token : (Piece.token item.token).size = item.token.text.utf8ByteSize := size _
      rw [token, text, ← String.append_assoc, ← String.utf8ByteSize_append]
    rw [List.flatMap_cons, pieces, List.append_assoc, List.append_assoc,
      Piece.lexemesFrom_blanks, start, List.singleton_append, Piece.lexemesFrom, stop, ih, placed]

theorem pieces_clean (items : List Spaced) (blanks : List Char) :
    ∀ piece ∈ items.flatMap pieces ++ blanks.map Piece.blank, piece.isJunk = false := by
  intro piece member
  simp only [pieces, List.mem_append, List.mem_flatMap, List.mem_map, List.mem_singleton]
    at member
  rcases member with ⟨item, _, ⟨c, _, rfl⟩ | rfl⟩ | ⟨c, _, rfl⟩
  all_goals rfl

end Spaced

/-- Lexing undoes rendering.  Tokens that match their patterns, with some blanks between
neighbours and any number of them at both ends, are read back as they are, at the bytes
where their texts were put. -/
theorem lex_rendered (items : List Spaced) (tail : String)
    (matching : ∀ item ∈ items, item.token.text.toList ∈ item.token.pattern)
    (free : ∀ item ∈ items, ∀ name, item.token = .identifier name → name ∉ keywords)
    (blank : ∀ item ∈ items, ∀ c ∈ item.gap.toList, Pattern.isBlank c = true)
    (ends : ∀ c ∈ tail.toList, Pattern.isBlank c = true)
    (parted : ∀ item ∈ items.tail, item.gap ≠ "") :
    lex (String.join (items.map Spaced.text) ++ tail) = .ok (Spaced.placed "" items) := by
  have legal : ∀ item ∈ items, item.token.Legal := fun item member =>
    item.token.legal_iff_pattern.mpr ⟨matching item member, free item member⟩
  have written : (String.join (items.map Spaced.text) ++ tail).toList =
      Spaced.chars items tail := by
    rw [String.toList_append, String.toList_join, List.flatMap_map]
    rfl
  have scanned := Spaced.ofText_chars items tail legal blank ends parted
  refine (lex_ok _ _).mpr ⟨?_, ?_⟩
  · rw [junkRuns, written, scanned]
    exact Piece.junkRunsFrom_nil 0 _ (Spaced.pieces_clean items tail.toList)
  · rw [tokenizeWithSpans, written, scanned]
    exact (Spaced.lexemesFrom_pieces "" items tail.toList).symm

/-- A string with a blank and a wide character in it, and words in front of line breaks. -/
def mixed : List Spaced :=
  [⟨"", .string "\"é 1\""⟩, ⟨"\t\n", .load⟩, ⟨" ", .number "-1.5"⟩, ⟨"\r\n", .boolean true⟩]

theorem mixed_legal : ∀ item ∈ mixed, item.token.Legal := by
  decide +kernel

theorem lex_rendered_mixed :
    (∀ item ∈ mixed, item.token.text.toList ∈ item.token.pattern) ∧
      (∀ item ∈ mixed.tail, item.gap ≠ "") ∧
      lex "\"é 1\"\t\nload -1.5\r\nTrue\n" = .ok [⟨.string "\"é 1\"", 0, 6⟩,
        ⟨.load, 8, 12⟩, ⟨.number "-1.5", 13, 17⟩, ⟨.boolean true, 19, 23⟩] := by
  have kinds := fun item member => (Token.legal_iff_pattern _).mp (mixed_legal item member)
  have blank : ∀ item ∈ mixed, ∀ c ∈ item.gap.toList, Pattern.isBlank c = true := by
    simp [mixed, Pattern.isBlank]
  have parted : ∀ item ∈ mixed.tail, item.gap ≠ "" := by simp [mixed]
  exact ⟨fun item member => (kinds item member).1, parted,
    lex_rendered mixed "\n" (fun item member => (kinds item member).1)
      (fun item member => (kinds item member).2) blank (by simp [Pattern.isBlank]) parted⟩

end BuildLang
