import BuildLang.Proofs.Tiling
import BuildLang.Proofs.Token.Spelling
import Mathlib.Data.List.Chain

/-!
# Regions of a source

A source is cut without a rest into tokens, blanks and runs of junk.  The spans of
the tokens and the diagnostics on the junk come from one such cut, so no byte is lost
and none is told twice.
-/

set_option autoImplicit false

namespace BuildLang

/-! ## Sizes -/

theorem byteLength_eq (text : List Char) : byteLength text = (String.ofList text).utf8ByteSize := by
  induction text with
  | nil => rfl
  | cons c rest ih =>
    have whole : String.ofList (c :: rest) = String.singleton c ++ String.ofList rest := by
      rw [String.singleton_eq_ofList, ← String.ofList_append, List.singleton_append]
    have size : byteLength (c :: rest) = c.utf8Size + byteLength rest := rfl
    rw [size, ih, whole, String.utf8ByteSize_append, String.utf8ByteSize_singleton]

theorem byteLength_append (front back : List Char) :
    byteLength (front ++ back) = byteLength front + byteLength back := by
  rw [byteLength_eq, byteLength_eq, byteLength_eq, String.ofList_append,
    String.utf8ByteSize_append]

theorem byteLength_pos (text : List Char) (some : text ≠ []) : 0 < byteLength text := by
  obtain ⟨c, rest, rfl⟩ := List.exists_cons_of_ne_nil some
  have first := c.utf8Size_pos
  have size : byteLength (c :: rest) = c.utf8Size + byteLength rest := rfl
  omega

namespace Piece

/-! ## Cutting -/

theorem ofMark_text (mark : Char) (lexeme : Token) (known : Token.ofMark? mark = some lexeme) :
    lexeme.text.toList = [mark] := by
  unfold Token.ofMark? at known
  repeat
    split at known
    · rename_i same
      cases known
      rw [same]
      rfl
  cases known

theorem ofWord_text (word : String) : (Token.ofWord word).text = word := by
  by_cases known : word ∈ keywords
  · simp only [keywords, List.mem_cons, List.not_mem_nil, or_false] at known
    rcases known with rfl | rfl | rfl | rfl <;> rfl
  · rw [ofWord_identifier word known]
    rfl

/-- The piece at the front is what the text begins with. -/
theorem first_begins (c : Char) (rest : List Char) :
    (first c rest).chars <+: c :: rest ∧ (first c rest).chars ≠ [] := by
  have taken (count : Nat) (some : count ≠ 0) :
      (c :: rest).take count <+: c :: rest ∧ (c :: rest).take count ≠ [] :=
    ⟨List.take_prefix _ _, by simp [some]⟩
  unfold first
  split
  · exact ⟨by simp [chars], by simp [chars]⟩
  · split
    · split
      · simpa [chars, Token.text] using taken (_ + 1) (by simp)
      · simpa [chars] using taken (_ + 1) (by simp)
    · split
      · split
        · rename_i known
          rw [chars, ofMark_text c _ known]
          simp
        · simp [chars]
      · rename_i isNumber
        simpa [chars, Token.text] using taken _ isNumber
      · rename_i isWord _
        rw [chars, ofWord_text, String.toList_ofList]
        exact taken _ isWord

theorem ofTextFrom_chars (skip : Nat) (text : List Char) :
    (ofTextFrom skip text).flatMap chars = text.drop skip := by
  induction text generalizing skip with
  | nil => cases skip <;> rfl
  | cons c rest ih =>
    cases skip with
    | succ skip => exact ih skip
    | zero =>
      obtain ⟨⟨more, whole⟩, some⟩ := first_begins c rest
      obtain ⟨d, image, image_eq⟩ := List.exists_cons_of_ne_nil some
      rw [ofTextFrom, List.flatMap_cons, ih, List.drop_zero]
      rw [image_eq] at whole ⊢
      obtain ⟨rfl, rfl⟩ := List.cons.inj whole
      simp

/-- The pieces one behind the other are the text. -/
theorem ofText_chars (text : List Char) : (ofText text).flatMap chars = text :=
  ofTextFrom_chars 0 text

theorem mem_ofTextFrom (skip : Nat) (text : List Char) (piece : Piece)
    (member : piece ∈ ofTextFrom skip text) : ∃ c rest, piece = first c rest := by
  induction text generalizing skip with
  | nil => cases skip <;> cases member
  | cons c rest ih =>
    cases skip with
    | succ skip => exact ih skip member
    | zero =>
      rcases List.mem_cons.mp member with rfl | later
      · exact ⟨c, rest, rfl⟩
      · exact ih _ later

theorem size_pos (text : List Char) (piece : Piece) (member : piece ∈ ofText text) :
    0 < piece.size := by
  obtain ⟨c, rest, rfl⟩ := mem_ofTextFrom 0 text piece member
  exact byteLength_pos _ (first_begins c rest).2

theorem isBlank_of_mem (text : List Char) (char : Char) (member : .blank char ∈ ofText text) :
    Pattern.isBlank char = true := by
  obtain ⟨c, rest, found⟩ := mem_ofTextFrom 0 text _ member
  unfold first at found
  split at found
  · rename_i blank
    cases found
    exact blank
  · split at found
    · split at found <;> cases found
    · split at found
      · split at found <;> cases found
      · cases found
      · cases found

end Piece

/-! ## Places -/

/-- The bytes of the source from `start` up to `stop` are those of the text, and no
character is cut in two at either end. -/
structure Occupies (source text : String) (start stop : Nat) : Prop where
  starts : String.Pos.Raw.IsValid source ⟨start⟩
  stops : String.Pos.Raw.IsValid source ⟨stop⟩
  bytes : source.toByteArray.extract start stop = text.toByteArray

theorem occupies_append (front text back : String) :
    Occupies (front ++ text ++ back) text front.utf8ByteSize
      (front.utf8ByteSize + text.utf8ByteSize) := by
  have size : (front ++ text).toByteArray.size = front.utf8ByteSize + text.utf8ByteSize := by
    rw [String.size_toByteArray, String.utf8ByteSize_append]
  constructor
  · refine String.Pos.Raw.isValid_iff_exists_append.mpr ⟨front, text ++ back, ?_, ?_⟩
    · rw [String.append_assoc]
    · exact String.Pos.Raw.ext String.byteIdx_rawEndPos.symm
  · refine String.Pos.Raw.isValid_iff_exists_append.mpr ⟨front ++ text, back, rfl, ?_⟩
    exact String.Pos.Raw.ext (by rw [String.byteIdx_rawEndPos, String.utf8ByteSize_append])
  · rw [String.toByteArray_append, ← size, ByteArray.extract_append_size_left, size,
      String.toByteArray_append]
    apply ByteArray.extract_append_eq_right
    · rw [String.size_toByteArray]
    · rw [String.size_toByteArray, String.size_toByteArray]

/-! ## Regions -/

/-- A token, a blank, or junk between such. -/
inductive Region where
  | token (lexeme : Lexeme)
  | blank (start : Nat) (char : Char)
  | junk (run : JunkRun)

namespace Region

def text : Region → String
  | .token lexeme => lexeme.token.text
  | .blank _ char => String.singleton char
  | .junk run => String.ofList run.text

/-- The bytes from the first number up to the second. -/
def range : Region → Nat × Nat
  | .token lexeme => (lexeme.start, lexeme.stop)
  | .blank start char => (start, start + char.utf8Size)
  | .junk run => (run.start, run.start + byteLength run.text)

def lexeme? : Region → Option Lexeme
  | .token lexeme => some lexeme
  | _ => none

def run? : Region → Option JunkRun
  | .junk run => some run
  | _ => none

theorem lexeme?_eq_some (region : Region) (lexeme : Lexeme) :
    region.lexeme? = some lexeme ↔ region = .token lexeme := by
  cases region <;> simp [lexeme?]

theorem run?_eq_some (region : Region) (run : JunkRun) :
    region.run? = some run ↔ region = .junk run := by
  cases region <;> simp [run?]

/-- Junk in front of regions is one with the junk that they begin with. -/
def joinJunk (offset : Nat) (text : List Char) : List Region → List Region
  | .junk run :: others => .junk ⟨offset, text ++ run.text⟩ :: others
  | others => .junk ⟨offset, text⟩ :: others

/-- The regions of pieces that begin at byte `offset`. -/
def ofPieces : Nat → List Piece → List Region
  | _, [] => []
  | offset, .token lexeme :: rest =>
      .token ⟨lexeme, offset, offset + (Piece.token lexeme).size⟩ ::
        ofPieces (offset + (Piece.token lexeme).size) rest
  | offset, .blank char :: rest =>
      .blank offset char :: ofPieces (offset + (Piece.blank char).size) rest
  | offset, .junk text :: rest =>
      joinJunk offset text (ofPieces (offset + (Piece.junk text).size) rest)

section

variable {offset stop : Nat} {text : List Char} {later : List Region}

theorem tiles_joinJunk (some : 0 < byteLength text)
    (tiles : Tiles (offset + byteLength text) (later.map range) stop) :
    Tiles offset ((joinJunk offset text later).map range) stop := by
  have alone (others : List Region)
      (rest : Tiles (offset + byteLength text) (others.map range) stop) :
      Tiles offset ((Region.junk ⟨offset, text⟩ :: others).map range) stop :=
    .cons (Nat.lt_add_of_pos_right some) rest
  cases later with
  | nil => exact alone [] tiles
  | cons first others =>
    cases first with
    | token lexeme => exact alone _ tiles
    | blank start char => exact alone _ tiles
    | junk run =>
      obtain ⟨begin, inside⟩ := run
      cases tiles with
      | cons nonempty rest =>
        have size : offset + byteLength (text ++ inside) =
            offset + byteLength text + byteLength inside := by
          rw [byteLength_append, Nat.add_assoc]
        refine .cons (Nat.lt_add_of_pos_right ?_) ?_
        · rw [byteLength_append]
          omega
        · dsimp only
          rw [size]
          exact rest

theorem text_joinJunk (offset : Nat) (text : List Char) (later : List Region) :
    (joinJunk offset text later).flatMap (fun region => region.text.toList) =
      text ++ later.flatMap fun region => region.text.toList := by
  unfold joinJunk
  split
  · simp [Region.text]
  · simp [Region.text]

theorem lexemes_joinJunk (offset : Nat) (text : List Char) (later : List Region) :
    (joinJunk offset text later).filterMap lexeme? = later.filterMap lexeme? := by
  unfold joinJunk
  split
  · rfl
  · rfl

theorem le_run_start (tiles : Tiles offset (later.map range) stop) (run : JunkRun)
    (member : run ∈ later.filterMap run?) : offset ≤ run.start := by
  obtain ⟨region, inside, found⟩ := List.mem_filterMap.mp member
  obtain rfl := (run?_eq_some region run).mp found
  exact (tiles.bounds _ (List.mem_map_of_mem inside)).1

/-- Runs that touch are those of neighbouring junk. -/
theorem runs_joinJunk (tiles : Tiles (offset + byteLength text) (later.map range) stop) :
    (joinJunk offset text later).filterMap run? =
      match later.filterMap run? with
      | [] => [⟨offset, text⟩]
      | run :: others =>
          if run.start = offset + byteLength text then ⟨offset, text ++ run.text⟩ :: others
          else ⟨offset, text⟩ :: run :: others := by
  -- Behind a token or a blank, no run begins where the junk ends.
  have apart (middle : Nat) (others : List Region) (behind : offset + byteLength text < middle)
      (rest : Tiles middle (others.map range) stop) :
      ⟨offset, text⟩ :: others.filterMap run? =
        match others.filterMap run? with
        | [] => [⟨offset, text⟩]
        | run :: others =>
            if run.start = offset + byteLength text then ⟨offset, text ++ run.text⟩ :: others
            else ⟨offset, text⟩ :: run :: others := by
    have late := le_run_start rest
    cases found : others.filterMap run? with
    | nil => rfl
    | cons run more =>
      have different : run.start ≠ offset + byteLength text := by
        have begins := late run (by simp [found])
        omega
      simp only [if_neg different]
  cases later with
  | nil => rfl
  | cons first others =>
    cases first with
    | token lexeme =>
      obtain ⟨lexeme, begin, behind⟩ := lexeme
      cases tiles with
      | cons some rest => exact apart _ others some rest
    | blank start char =>
      cases tiles with
      | cons some rest => exact apart _ others some rest
    | junk run =>
      obtain ⟨begin, inside⟩ := run
      cases tiles with
      | cons some rest => simp [joinJunk, run?]

theorem apart_joinJunk (offset : Nat) (text : List Char) (later : List Region)
    (apart : later.IsChain fun first second => first.run?.isNone ∨ second.run?.isNone) :
    (joinJunk offset text later).IsChain fun first second =>
      first.run?.isNone ∨ second.run?.isNone := by
  cases later with
  | nil => exact .singleton _
  | cons first others =>
    cases first with
    | token lexeme => exact .cons_cons (.inr rfl) apart
    | blank start char => exact .cons_cons (.inr rfl) apart
    | junk run =>
      obtain ⟨follows, rest⟩ := List.isChain_cons.mp apart
      exact List.isChain_cons.mpr ⟨follows, rest⟩

end

/-! ## The regions of pieces -/

theorem tiles_ofPieces (pieces : List Piece) (offset : Nat)
    (some : ∀ piece ∈ pieces, 0 < piece.size) :
    Tiles offset ((ofPieces offset pieces).map range)
      (offset + byteLength (pieces.flatMap Piece.chars)) := by
  induction pieces generalizing offset with
  | nil => exact .nil
  | cons piece rest ih =>
    have first := some piece (by simp)
    have later := ih (offset + piece.size) fun other member => some other (by simp [member])
    rw [List.flatMap_cons, byteLength_append, ← Nat.add_assoc]
    cases piece with
    | token lexeme => exact .cons (Nat.lt_add_of_pos_right first) later
    | blank char => exact .cons (Nat.lt_add_of_pos_right first) later
    | junk text => exact tiles_joinJunk first later

theorem text_ofPieces (pieces : List Piece) (offset : Nat) :
    (ofPieces offset pieces).flatMap (fun region => region.text.toList) =
      pieces.flatMap Piece.chars := by
  induction pieces generalizing offset with
  | nil => rfl
  | cons piece rest ih =>
    have later := ih (offset + piece.size)
    cases piece with
    | token lexeme => exact congrArg (lexeme.text.toList ++ ·) later
    | blank char =>
      rw [ofPieces, List.flatMap_cons, later]
      simp [Region.text, Piece.chars]
    | junk text =>
      rw [ofPieces, text_joinJunk, later]
      rfl

theorem lexemes_ofPieces (pieces : List Piece) (offset : Nat) :
    (ofPieces offset pieces).filterMap lexeme? = Piece.lexemesFrom offset pieces := by
  induction pieces generalizing offset with
  | nil => rfl
  | cons piece rest ih =>
    have later := ih (offset + piece.size)
    cases piece with
    | token lexeme => exact congrArg (List.cons _) later
    | blank char => exact later
    | junk text => exact (lexemes_joinJunk offset text _).trans later

theorem runs_ofPieces (pieces : List Piece) (offset : Nat)
    (some : ∀ piece ∈ pieces, 0 < piece.size) :
    (ofPieces offset pieces).filterMap run? = Piece.junkRunsFrom offset pieces := by
  induction pieces generalizing offset with
  | nil => rfl
  | cons piece rest ih =>
    have smaller : ∀ piece ∈ rest, 0 < piece.size :=
      fun other member => some other (by simp [member])
    have later := ih (offset + piece.size) smaller
    cases piece with
    | token lexeme => exact later
    | blank char => exact later
    | junk text =>
      have tiles : Tiles (offset + byteLength text) _ _ :=
        tiles_ofPieces rest (offset + (Piece.junk text).size) smaller
      rw [ofPieces]
      refine (runs_joinJunk tiles).trans ?_
      rw [Piece.junkRunsFrom, ← later]
      rfl

theorem apart_ofPieces (pieces : List Piece) (offset : Nat) :
    (ofPieces offset pieces).IsChain fun first second =>
      first.run?.isNone ∨ second.run?.isNone := by
  induction pieces generalizing offset with
  | nil => exact .nil
  | cons piece rest ih =>
    have later := ih (offset + piece.size)
    cases piece with
    | token lexeme => exact List.isChain_cons.mpr ⟨fun _ _ => .inl rfl, later⟩
    | blank char => exact List.isChain_cons.mpr ⟨fun _ _ => .inl rfl, later⟩
    | junk text => exact apart_joinJunk offset text _ later

theorem mem_joinJunk (offset : Nat) (text : List Char) (later : List Region) (region : Region)
    (member : region ∈ joinJunk offset text later) :
    region ∈ later ∨ ∃ run, region = .junk run := by
  unfold joinJunk at member
  split at member
  · rcases List.mem_cons.mp member with rfl | other
    · exact .inr ⟨_, rfl⟩
    · exact .inl (List.mem_cons_of_mem _ other)
  · rcases List.mem_cons.mp member with rfl | other
    · exact .inr ⟨_, rfl⟩
    · exact .inl other

/-- What a region owes to the piece that it was made of. -/
def Fits (pieces : List Piece) : Region → Prop
  | .token lexeme => lexeme.stop = lexeme.start + byteLength lexeme.token.text.toList
  | .blank _ char => .blank char ∈ pieces
  | .junk _ => True

theorem Fits.cons {piece : Piece} {pieces : List Piece} {region : Region}
    (fits : region.Fits pieces) : region.Fits (piece :: pieces) := by
  cases region with
  | token => exact fits
  | blank => exact List.mem_cons_of_mem piece fits
  | junk => trivial

theorem fits_ofPieces (pieces : List Piece) (offset : Nat) :
    ∀ region ∈ ofPieces offset pieces, region.Fits pieces := by
  induction pieces generalizing offset with
  | nil => simp [ofPieces]
  | cons piece rest ih =>
    intro region member
    have later := ih (offset + piece.size) region
    cases piece with
    | token lexeme =>
      rcases List.mem_cons.mp member with rfl | member
      · exact rfl
      · exact (later member).cons
    | blank char =>
      rcases List.mem_cons.mp member with rfl | member
      · exact List.mem_cons_self
      · exact (later member).cons
    | junk text =>
      rcases mem_joinJunk offset text _ region member with member | ⟨run, rfl⟩
      · exact (later member).cons
      · trivial

/-- A region ends where its text does. -/
theorem Fits.stop {pieces : List Piece} {region : Region} (fits : region.Fits pieces) :
    region.range.2 = region.range.1 + region.text.utf8ByteSize := by
  cases region with
  | token lexeme =>
    have stop : lexeme.stop = lexeme.start + byteLength lexeme.token.text.toList := fits
    rw [byteLength_eq, String.ofList_toList] at stop
    exact stop
  | blank start char => rw [Region.text, String.utf8ByteSize_singleton]; rfl
  | junk run => rw [Region.text, ← byteLength_eq]; rfl

/-- Regions that tile a text in order stand where they say. -/
theorem occupies_of_tiles (source front : String) (regions : List Region) (stop : Nat)
    (whole : source = front ++ String.ofList (regions.flatMap fun region => region.text.toList))
    (tiles : Tiles front.utf8ByteSize (regions.map range) stop)
    (sized : ∀ region ∈ regions,
      region.range.2 = region.range.1 + region.text.utf8ByteSize) :
    ∀ region ∈ regions, Occupies source region.text region.range.1 region.range.2 := by
  induction regions generalizing front with
  | nil => simp
  | cons first others ih =>
    obtain ⟨start, _, rest⟩ := tiles.of_cons
    have size := sized first (by simp)
    rw [start] at size
    rw [List.flatMap_cons, String.ofList_append, String.ofList_toList, ← String.append_assoc]
      at whole
    intro region member
    rcases List.mem_cons.mp member with rfl | later
    · rw [start, size, whole]
      exact occupies_append front region.text _
    · rw [size, ← String.utf8ByteSize_append] at rest
      exact ih (front ++ first.text) whole rest
        (fun other member => sized other (List.mem_cons_of_mem first member)) region later

end Region

/-- A source cut into regions that leave nothing out: each holds the text of its bytes,
and no two runs of junk touch. -/
structure Cut (source : String) (regions : List Region) : Prop where
  tiles : Tiles 0 (regions.map Region.range) source.utf8ByteSize
  occupies : ∀ region ∈ regions,
    Occupies source region.text region.range.1 region.range.2
  blanks : ∀ start char, .blank start char ∈ regions →
    char ∈ [' ', '\t', '\r', '\n', '\x0c']
  apart : regions.IsChain fun first second => first.run?.isNone ∨ second.run?.isNone
  lexemes : regions.filterMap Region.lexeme? = tokenizeWithSpans source
  runs : regions.filterMap Region.run? = junkRuns source

theorem cut_ofPieces (source : String) :
    Cut source (Region.ofPieces 0 (Piece.ofText source.toList)) := by
  have some := Piece.size_pos source.toList
  have tiles := Region.tiles_ofPieces (Piece.ofText source.toList) 0 some
  rw [Piece.ofText_chars, byteLength_eq, String.ofList_toList, Nat.zero_add] at tiles
  have fits := Region.fits_ofPieces (Piece.ofText source.toList) 0
  refine ⟨tiles, ?_, ?_, Region.apart_ofPieces _ 0, Region.lexemes_ofPieces _ 0,
    Region.runs_ofPieces _ 0 some⟩
  · refine Region.occupies_of_tiles source "" _ _ ?_ tiles fun region member =>
      (fits region member).stop
    rw [Region.text_ofPieces, Piece.ofText_chars, String.ofList_toList, String.empty_append]
  · intro start char member
    have blank := Piece.isBlank_of_mem _ char (fits _ member)
    simpa [Pattern.isBlank, or_assoc] using blank

namespace Cut

variable {source : String} {regions : List Region}

theorem bounds (cut : Cut source regions) (region : Region) (member : region ∈ regions) :
    region.range.1 < region.range.2 ∧ region.range.2 ≤ source.utf8ByteSize :=
  (cut.tiles.bounds _ (List.mem_map_of_mem member)).2

theorem token_mem (cut : Cut source regions) (lexeme : Lexeme) :
    .token lexeme ∈ regions ↔ lexeme ∈ tokenizeWithSpans source := by
  simp [← cut.lexemes, List.mem_filterMap, Region.lexeme?_eq_some]

theorem junk_mem (cut : Cut source regions) (run : JunkRun) :
    .junk run ∈ regions ↔ run ∈ junkRuns source := by
  simp [← cut.runs, List.mem_filterMap, Region.run?_eq_some]

end Cut

/-! ## What the lexer returns -/

theorem lexeme_place (source : String) (lexeme : Lexeme)
    (member : lexeme ∈ tokenizeWithSpans source) :
    lexeme.start < lexeme.stop ∧ lexeme.stop ≤ source.utf8ByteSize ∧
      Occupies source lexeme.token.text lexeme.start lexeme.stop := by
  have cut := cut_ofPieces source
  have inside := (cut.token_mem lexeme).mpr member
  obtain ⟨some, within⟩ := cut.bounds _ inside
  exact ⟨some, within, cut.occupies _ inside⟩

/-- No token begins before the one in front of it ends. -/
theorem lexemes_ordered (source : String) :
    (tokenizeWithSpans source).Pairwise fun first second => first.stop ≤ second.start := by
  have cut := cut_ofPieces source
  rw [← cut.lexemes, List.pairwise_filterMap]
  refine (List.pairwise_map.mp cut.tiles.ordered).imp ?_
  intro first second order left leftFound right rightFound
  obtain rfl := (Region.lexeme?_eq_some first left).mp leftFound
  obtain rfl := (Region.lexeme?_eq_some second right).mp rightFound
  exact order

theorem runs_ascending (source : String) :
    (junkRuns source).Pairwise fun first second => first.start < second.start := by
  have cut := cut_ofPieces source
  rw [← cut.runs, List.pairwise_filterMap]
  refine (List.pairwise_map.mp cut.tiles.ascending).imp ?_
  intro first second order left leftFound right rightFound
  obtain rfl := (Region.run?_eq_some first left).mp leftFound
  obtain rfl := (Region.run?_eq_some second right).mp rightFound
  exact order

/-- A run begins inside the source. -/
theorem run_start_le (source : String) (run : JunkRun) (member : run ∈ junkRuns source) :
    run.start ≤ source.utf8ByteSize := by
  have cut := cut_ofPieces source
  obtain ⟨some, within⟩ := cut.bounds _ ((cut.junk_mem run).mpr member)
  exact Nat.le_trans (Nat.le_of_lt some) within

theorem ofSource_size (source : String) :
    (LineIndex.ofSource source).size = source.utf8ByteSize := by
  rw [LineIndex.ofSource, byteLength_eq, String.ofList_toList]

theorem position_offset (source : String) (offset : Nat) (inside : offset ≤ source.utf8ByteSize) :
    ((LineIndex.ofSource source).position offset).offset = offset := by
  rw [← ofSource_size] at inside
  exact Nat.min_eq_left inside

/-- The diagnostic quotes the run and points at its first byte. -/
structure Diagnostic.Reports (source : String) (run : JunkRun) (diagnostic : Diagnostic) :
    Prop where
  kind : diagnostic.kind = .lexical
  message : diagnostic.message = "unrecognized input `" ++ String.ofList run.text ++ "`"
  position : diagnostic.position = some ((LineIndex.ofSource source).position run.start)
  offset : diagnostic.sortKey = run.start

theorem reports_ofJunk (source : String) (run : JunkRun) (member : run ∈ junkRuns source) :
    (Diagnostic.ofJunk (.ofSource source) run).Reports source run :=
  ⟨rfl, rfl, rfl, position_offset source run.start (run_start_le source run member)⟩

theorem lex_ok (source : String) (lexemes : List Lexeme) :
    lex source = .ok lexemes ↔ junkRuns source = [] ∧ lexemes = tokenizeWithSpans source := by
  unfold lex
  cases junkRuns source with
  | nil => simp [eq_comm]
  | cons run others => simp

theorem lex_error (source : String) (diagnostics : List Diagnostic) :
    lex source = .error diagnostics ↔
      junkRuns source ≠ [] ∧
        diagnostics = (junkRuns source).map (Diagnostic.ofJunk (.ofSource source)) := by
  unfold lex
  cases junkRuns source with
  | nil => simp
  | cons run others => simp [eq_comm]

/-- The lexer accounts for every byte once.  A source is cut into tokens, blanks and
runs of junk; the tokens stand in order, each where its text is; the source lexes
exactly if there is no junk, and otherwise every run of junk is reported once, in
order, with its text and at its first byte. -/
theorem lex_partition (source : String) :
    (∃ regions, Cut source regions) ∧
    (∀ lexeme ∈ tokenizeWithSpans source,
      lexeme.start < lexeme.stop ∧ lexeme.stop ≤ source.utf8ByteSize ∧
        Occupies source lexeme.token.text lexeme.start lexeme.stop) ∧
    (tokenizeWithSpans source).Pairwise (fun first second => first.stop ≤ second.start) ∧
    tokenize source = (tokenizeWithSpans source).map Lexeme.token ∧
    (∀ lexemes, lex source = .ok lexemes ↔
      junkRuns source = [] ∧ lexemes = tokenizeWithSpans source) ∧
    (junkRuns source ≠ [] → ∃ diagnostics, lex source = .error diagnostics ∧
      List.Forall₂ (Diagnostic.Reports source) (junkRuns source) diagnostics ∧
      diagnostics.Pairwise fun first second => first.sortKey < second.sortKey) := by
  refine ⟨⟨_, cut_ofPieces source⟩, lexeme_place source, lexemes_ordered source, rfl,
    lex_ok source, ?_⟩
  intro some
  refine ⟨_, (lex_error source _).mpr ⟨some, rfl⟩, ?_, ?_⟩
  · rw [List.forall₂_map_right_iff, List.forall₂_same]
    exact reports_ofJunk source
  · rw [List.pairwise_map]
    refine (runs_ascending source).imp_of_mem ?_
    intro first second member later order
    rw [(reports_ofJunk source first member).offset, (reports_ofJunk source second later).offset]
    exact order

end BuildLang
