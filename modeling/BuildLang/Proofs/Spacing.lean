import BuildLang.Proofs.Formatting
import BuildLang.Proofs.Token.Regions
import Mathlib.Data.List.Forall2
import Mathlib.Order.Monotone.Basic

/-!
# Spacing

Sources with the same tokens are read alike, wherever the tokens stand.  The grammar
counts tokens and sees no byte.  Bytes come in where an index becomes a place, and
there they are in the order of the tokens, so that diagnostics in the order of bytes
are in the order of tokens.
-/

set_option autoImplicit false

namespace BuildLang

/-! ## Places of tokens -/

/-- The place of a token of a source, or of the end of input behind the last one. -/
def tokenPlace (source : String) : Nat → Position :=
  tokenPosition (.ofSource source) (tokenizeWithSpans source).toArray

theorem length_tokenize (source : String) :
    (tokenize source).length = (tokenizeWithSpans source).length :=
  List.length_map _

theorem tokenPlace_inside (source : String) (index : Nat) (lexeme : Lexeme)
    (found : (tokenizeWithSpans source)[index]? = some lexeme) :
    (tokenPlace source index).offset = lexeme.start := by
  obtain ⟨long, inside, _⟩ := lexeme_place source lexeme (List.mem_of_getElem? found)
  have within : lexeme.start ≤ source.utf8ByteSize := by omega
  have place : tokenPlace source index = (LineIndex.ofSource source).position lexeme.start := by
    simp [tokenPlace, tokenPosition, found]
  rw [place, position_offset source lexeme.start within]

theorem tokenPlace_behind (source : String) (index : Nat)
    (behind : (tokenizeWithSpans source).length ≤ index) :
    tokenPlace source index = (LineIndex.ofSource source).position source.utf8ByteSize := by
  have none : (tokenizeWithSpans source)[index]? = none := List.getElem?_eq_none behind
  simp [tokenPlace, tokenPosition, none, ofSource_size]

/-- An index behind the last token stands for the end of input. -/
theorem tokenPlace_min (source : String) (index : Nat) :
    tokenPlace source (min index (tokenize source).length) = tokenPlace source index := by
  have count := length_tokenize source
  rw [count]
  by_cases inside : index ≤ (tokenizeWithSpans source).length
  · rw [Nat.min_eq_left inside]
  · have behind : (tokenizeWithSpans source).length ≤ index := by omega
    rw [Nat.min_eq_right behind, tokenPlace_behind source _ (Nat.le_refl _),
      tokenPlace_behind source index behind]

/-- Later tokens have later places, and the end of input has the last. -/
theorem tokenPlace_ascending (source : String) :
    StrictMonoOn (fun index => (tokenPlace source index).offset)
      {index | index ≤ (tokenize source).length} := by
  have count := length_tokenize source
  intro first _ second within before
  have within : second ≤ (tokenize source).length := within
  have inside : first < (tokenizeWithSpans source).length := by omega
  have left : (tokenizeWithSpans source)[first]? = some (tokenizeWithSpans source)[first] :=
    List.getElem?_eq_getElem inside
  obtain ⟨long, ends, _⟩ := lexeme_place source _ (List.mem_of_getElem? left)
  show (tokenPlace source first).offset < (tokenPlace source second).offset
  rw [tokenPlace_inside source first _ left]
  by_cases last : second < (tokenizeWithSpans source).length
  · have right : (tokenizeWithSpans source)[second]? = some (tokenizeWithSpans source)[second] :=
      List.getElem?_eq_getElem last
    have order := List.pairwise_iff_getElem.mp (lexemes_ordered source) first second inside last
      before
    rw [tokenPlace_inside source second _ right]
    omega
  · rw [tokenPlace_behind source second (by omega),
      position_offset source _ (Nat.le_refl _)]
    omega

theorem tokenPlace_le_iff (source : String) (first second : Nat) :
    (tokenPlace source first).offset ≤ (tokenPlace source second).offset ↔
      min first (tokenize source).length ≤ min second (tokenize source).length := by
  rw [← tokenPlace_min source first, ← tokenPlace_min source second]
  exact (tokenPlace_ascending source).le_iff_le (Nat.min_le_right _ _) (Nat.min_le_right _ _)

/-! ## The order of diagnostics -/

/-- By token, the end of input being one behind the last; those at one token keep
their order. -/
def Remark.sort (count : Nat) (remarks : List Remark) : List Remark :=
  remarks.mergeSort fun first second => min first.start count ≤ min second.start count

/-- Sorting by byte is sorting by token. -/
theorem sort_toDiagnostic (source : String) (remarks : List Remark) :
    Diagnostic.sort (remarks.map (Remark.toDiagnostic (tokenPlace source))) =
      (Remark.sort (tokenize source).length remarks).map
        (Remark.toDiagnostic (tokenPlace source)) := by
  symm
  apply List.map_mergeSort
  intro first _ second _
  exact decide_eq_decide.mpr (tokenPlace_le_iff source first.start second.start).symm

/-- Everything that reading a source makes of its tokens is made of their list alone,
but for the places. -/
theorem parseLexemes_tokenize (recovery : Recovery) (source : String) :
    parseLexemes recovery (tokenizeWithSpans source) source =
      ⟨(readTokens recovery (tokenize source)).file.map
          (BuildFile.mapPosition (tokenPlace source)),
        (Remark.sort (tokenize source).length
            (readTokens recovery (tokenize source)).remarks).map
          (Remark.toDiagnostic (tokenPlace source))⟩ := by
  rw [← sort_toDiagnostic]
  rfl

/-! ## Two sources -/

/-- Two diagnostics, each on its own source, that tell the same about one token or
about the end of input. -/
structure Diagnostic.Alike (first second : String) (left right : Diagnostic) : Prop where
  kind : left.kind = right.kind
  message : left.message = right.message
  place : ∃ index, index ≤ (tokenize first).length ∧
    left.position = some (tokenPlace first index) ∧
    right.position = some (tokenPlace second index)

/-- Two results, each for its own source: both a value, and these the same, or both an
error, with diagnostics that are alike one by one. -/
inductive AlikeResults {α : Type} (first second : String) (same : α → α → Prop) :
    Except (List Diagnostic) α → Except (List Diagnostic) α → Prop where
  | ok {left right : α} (values : same left right) :
      AlikeResults first second same (.ok left) (.ok right)
  | error {left right : List Diagnostic}
      (diagnostics : List.Forall₂ (Diagnostic.Alike first second) left right) :
      AlikeResults first second same (.error left) (.error right)

theorem AlikeResults.map {α β : Type} {first second : String} {same : α → α → Prop}
    {other : β → β → Prop} {left right : Except (List Diagnostic) α}
    (alike : AlikeResults first second same left right) (f : α → β)
    (kept : ∀ value further, same value further → other (f value) (f further)) :
    AlikeResults first second other (left.map f) (right.map f) := by
  cases alike with
  | ok values => exact .ok (kept _ _ values)
  | error diagnostics => exact .error diagnostics

/-- Two readings, each of its own source, with the same tree but for places and with
diagnostics that are alike one by one. -/
structure Parsed.Alike (first second : String) (left right : Parsed) : Prop where
  file : left.file.map BuildFile.bare = right.file.map BuildFile.bare
  diagnostics : List.Forall₂ (Diagnostic.Alike first second) left.diagnostics right.diagnostics

theorem alike_toDiagnostic (first second : String) (same : tokenize first = tokenize second)
    (remark : Remark) :
    Diagnostic.Alike first second (remark.toDiagnostic (tokenPlace first))
      (remark.toDiagnostic (tokenPlace second)) where
  kind := rfl
  message := rfl
  place := by
    refine ⟨min remark.start (tokenize first).length, Nat.min_le_right _ _, ?_, ?_⟩
    · rw [tokenPlace_min]
      rfl
    · rw [same, tokenPlace_min]
      rfl

theorem parseLexemes_alike (recovery : Recovery) (first second : String)
    (same : tokenize first = tokenize second) :
    Parsed.Alike first second (parseLexemes recovery (tokenizeWithSpans first) first)
      (parseLexemes recovery (tokenizeWithSpans second) second) := by
  rw [parseLexemes_tokenize, parseLexemes_tokenize, ← same]
  constructor
  · simp only [Option.map_map]
    refine Option.map_congr ?_
    intro tree _
    simp only [Function.comp_apply, BuildFile.bare_mapPosition]
  · rw [List.forall₂_map_left_iff, List.forall₂_map_right_iff, List.forall₂_same]
    intro remark _
    exact alike_toDiagnostic first second same remark

theorem Parsed.Alike.toExcept {first second : String} {left right : Parsed}
    (alike : Parsed.Alike first second left right) :
    AlikeResults first second (fun tree other => tree.bare = other.bare) left.toExcept
      right.toExcept := by
  obtain ⟨file, diagnostics⟩ := left
  obtain ⟨other, others⟩ := right
  obtain ⟨bare, told⟩ := alike
  cases file with
  | none =>
    cases other with
    | some tree => cases bare
    | none => exact .error told
  | some tree =>
    cases other with
    | none => cases bare
    | some further =>
      cases told with
      | nil => exact .ok (Option.some.inj bare)
      | cons head tail => exact .error (.cons head tail)

theorem tokenize_lexed (source : String) (lexemes : List Lexeme)
    (lexed : lex source = .ok lexemes) :
    lexemes = tokenizeWithSpans source ∧ lexemes.map Lexeme.token = tokenize source := by
  obtain ⟨_, rfl⟩ := (lex_ok source lexemes).mp lexed
  exact ⟨rfl, rfl⟩

/-- Spacing carries no meaning.  Two sources that lex to the same tokens are both read
or both rejected, with recovery and without: read as the same tree but for places, so
that they are formatted as the same text, or rejected with the same diagnostics on the
same tokens.  The trees and diagnostics that recovery returns agree as well. -/
theorem spacing_meaningless (first second : String) (left right : List Lexeme)
    (leftLexed : lex first = .ok left) (rightLexed : lex second = .ok right)
    (same : left.map Lexeme.token = right.map Lexeme.token) :
    (∀ recovery, AlikeResults first second (fun tree other => tree.bare = other.bare)
      (parseWith recovery first) (parseWith recovery second)) ∧
    (∀ recovery options, AlikeResults first second Eq (formatWith recovery options first)
      (formatWith recovery options second)) ∧
    Parsed.Alike first second (parseRecovering first) (parseRecovering second) := by
  obtain ⟨rfl, leftTokens⟩ := tokenize_lexed first left leftLexed
  obtain ⟨rfl, rightTokens⟩ := tokenize_lexed second right rightLexed
  have tokens : tokenize first = tokenize second := leftTokens.symm.trans (same.trans rightTokens)
  have parsed (recovery : Recovery) :
      AlikeResults first second (fun tree other => tree.bare = other.bare)
        (parseWith recovery first) (parseWith recovery second) := by
    have alike := (parseLexemes_alike recovery first second tokens).toExcept
    rw [parseWith, parseWith, leftLexed, rightLexed]
    exact alike
  refine ⟨parsed, ?_, ?_⟩
  · intro recovery options
    refine (parsed recovery).map (BuildFile.print options) ?_
    intro tree other bare
    exact BuildFile.print_congr options tree other bare
  · rw [parseRecovering, parseRecovering, leftLexed, rightLexed]
    exact parseLexemes_alike .on first second tokens

/-- A list with a comma too many in front of a late load, without any blank. -/
def crowded : String := "x=[1,]load(\"a\",\"b\")"

/-- The same tokens on lines of their own. -/
def airy : String := "x = [\n\t1,\n]\r\n\nload( \"a\", \"b\" )\n"

theorem spacing_meaningless_crowded :
    lex crowded = .ok (tokenizeWithSpans crowded) ∧ lex airy = .ok (tokenizeWithSpans airy) ∧
      (tokenizeWithSpans crowded).map Lexeme.token = (tokenizeWithSpans airy).map Lexeme.token ∧
      Parsed.Alike crowded airy (parseRecovering crowded) (parseRecovering airy) := by
  have leftLexed : lex crowded = .ok (tokenizeWithSpans crowded) :=
    (lex_ok crowded _).mpr ⟨by decide +kernel, rfl⟩
  have rightLexed : lex airy = .ok (tokenizeWithSpans airy) :=
    (lex_ok airy _).mpr ⟨by decide +kernel, rfl⟩
  have same : (tokenizeWithSpans crowded).map Lexeme.token =
      (tokenizeWithSpans airy).map Lexeme.token := by decide +kernel
  exact ⟨leftLexed, rightLexed, same,
    (spacing_meaningless crowded airy _ _ leftLexed rightLexed same).2.2⟩

end BuildLang
