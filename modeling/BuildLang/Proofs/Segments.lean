import BuildLang.Proofs.Progress
import Mathlib.Data.List.Chain

/-!
# Statements among junk

Where statements and runs of junk take turns, every statement is read as if the junk
were not there, and every run of junk is reported once.
-/

set_option autoImplicit false

namespace BuildLang

open BuildLang.Parser

/-- Tokens at none of which a statement could begin. -/
structure Barren (tokens : List Token) : Prop where
  noLoad : Token.load ∉ tokens
  noName : ∀ front back name sign, tokens = front ++ .identifier name :: sign :: back →
    sign ≠ .leftParen ∧ sign ≠ .equals

structure IsJunk (tokens : List Token) : Prop extends Barren tokens where
  some : tokens ≠ []

/-- No comma of the statement stands where the grammar admits none. -/
def StatementForm.Grammatical (form : StatementForm) : Prop :=
  ∀ start, form.written.surplus start = []

/-- A part of a token list: one statement or one run of junk. -/
inductive Segment where
  | statement (form : StatementForm) (grammatical : form.Grammatical) (lexemes : List Lexeme)
      (spells : lexemes.map Lexeme.token = form.written.tokens)
  | junk (lexemes : List Lexeme) (isJunk : IsJunk (lexemes.map Lexeme.token))

namespace Segment

def lexemes : Segment → List Lexeme
  | .statement _ _ lexemes _ => lexemes
  | .junk lexemes _ => lexemes

def tokens (segment : Segment) : List Token :=
  segment.lexemes.map Lexeme.token

def isJunk : Segment → Bool
  | .statement .. => false
  | .junk .. => true

/-- The statement that a segment beginning at token `start` stands for. -/
def tree? (start : Nat) : Segment → Option (Statement Nat)
  | .statement form _ _ _ => some (form.written.tree start)
  | .junk .. => none

/-- What one segment may follow: junk behind junk would be one run, and a parenthesis
behind a declared `select` would make a call of it. -/
def MayPrecede : Segment → Segment → Prop
  | .junk .., .junk .. => False
  | .statement form _ _ _, .junk lexemes _ => form.Admits (lexemes.map Lexeme.token).head?
  | _, .statement .. => True

/-- The statements among segments of which the first begins at token `start`. -/
def trees : Nat → List Segment → List (Statement Nat)
  | _, [] => []
  | start, segment :: rest =>
      (segment.tree? start).toList ++ trees (start + segment.lexemes.length) rest

/-- Where the runs of junk begin. -/
def junkStarts : Nat → List Segment → List Nat
  | _, [] => []
  | start, segment :: rest =>
      (if segment.isJunk then [start] else []) ++
        junkStarts (start + segment.lexemes.length) rest

/-- The step that is taken for a segment. -/
def step (start : Nat) (segment : Segment) : Step :=
  ⟨start, start + segment.lexemes.length, (segment.tree? start).getD .skipped⟩

def steps : Nat → List Segment → List Step
  | _, [] => []
  | start, segment :: rest => segment.step start :: steps (start + segment.lexemes.length) rest

end Segment

/-! ## Where statements begin -/

theorem statementStarts_written (form : StatementForm) (rest : List Token) :
    StatementStarts (form.written.tokens ++ rest) := by
  match form with
  | .load _ => exact trivial
  | .package _ => exact trivial
  | .packageGroup _ => exact trivial
  | .body (.exportsFiles _) => exact trivial
  | .body (.rule _) => exact trivial
  | .body (.declaration _) => exact trivial

theorem StatementStarts.head_ne {rest : List Token} (starts : StatementStarts rest) :
    rest.head? ≠ some .leftParen ∧ rest.head? ≠ some .equals := by
  match rest, starts with
  | .load :: _, _ => simp
  | .identifier _ :: .leftParen :: _, _ => simp
  | .identifier _ :: .equals :: _, _ => simp

theorem Barren.tail {lexeme : Token} {others : List Token} (barren : Barren (lexeme :: others)) :
    Barren others := by
  constructor
  · intro member
    exact barren.noLoad (List.mem_cons_of_mem lexeme member)
  · intro front back name sign split
    exact barren.noName (lexeme :: front) back name sign (by rw [split, List.cons_append])

/-- A name at the end of junk is no start either: what follows is a statement. -/
theorem Barren.noStart {lexeme : Token} {others rest : List Token}
    (barren : Barren (lexeme :: others)) (ends : rest = [] ∨ StatementStarts rest) :
    ¬ StatementStarts (lexeme :: others ++ rest) := by
  intro starts
  cases others with
  | cons sign back =>
    match lexeme, sign, starts with
    | .load, _, _ => exact barren.noLoad (by simp)
    | .identifier name, .leftParen, _ => exact (barren.noName [] back name _ rfl).1 rfl
    | .identifier name, .equals, _ => exact (barren.noName [] back name _ rfl).2 rfl
  | nil =>
    rcases ends with rfl | ends
    · match lexeme, starts with
      | .load, _ => exact barren.noLoad (by simp)
    · obtain ⟨noParen, noEquals⟩ := ends.head_ne
      match lexeme, rest, starts with
      | .load, _, _ => exact barren.noLoad (by simp)
      | .identifier _, .leftParen :: _, _ => exact noParen rfl
      | .identifier _, .equals :: _, _ => exact noEquals rfl

/-- Junk is skipped up to where it ends. -/
theorem Barren.skipsTo {tokens rest : List Token} (barren : Barren tokens)
    (ends : rest = [] ∨ StatementStarts rest) : SkipsTo rest tokens := by
  induction tokens with
  | nil => exact .stop ends
  | cons lexeme others ih => exact .pass (barren.noStart ends) (ih barren.tail)

/-! ## One segment -/

theorem documentStep_junk (cursor next : Cursor) (tokens : List Token) (isJunk : IsJunk tokens)
    (spans : Spans cursor tokens next) (ends : next.rest = [] ∨ StatementStarts next.rest) :
    ∃ fault hint, (statement .on cursor).outcome = .error fault ∧
      documentStep .on cursor =
        ⟨[fault], .ok ⟨⟨cursor.index, next.index, .skipped⟩, hint, next⟩⟩ := by
  cases tokens with
  | nil => exact absurd rfl isJunk.some
  | cons lexeme run =>
    have noStart : ¬ StatementStarts cursor.rest := by
      rw [spans.1]
      exact isJunk.toBarren.noStart ends
    obtain ⟨fault, failed⟩ := refuses_statement .on cursor lexeme _ spans.1 noStart
    obtain ⟨hint, passed⟩ := (skipped_iff cursor next [] _).mpr
      ⟨rfl, rfl, lexeme, run, spans, isJunk.toBarren.tail.skipsTo ends⟩
    refine ⟨fault, hint, by rw [failed], ?_⟩
    simp only [documentStep, recoverWith, Parser.step, mapSpan, failed, passed, Reply.after]
    rfl

theorem documentStep_grammatical (form : StatementForm) (grammatical : form.Grammatical)
    (cursor next : Cursor) (spans : Spans cursor form.written.tokens next)
    (admits : form.Admits next.rest.head?) :
    ∃ hint, documentStep .on cursor =
      ⟨[], .ok ⟨form.step.tree cursor.index, hint, next⟩⟩ := by
  have reads := readsWritten_documentStep .on form cursor next spans admits
  have clean : form.step.surplus cursor.index = [] := grammatical cursor.index
  rw [clean] at reads
  exact (reads_clean _ _ _ _).mp reads

/-! ## A row of segments -/

namespace Segment

theorem tokens_flatMap (segments : List Segment) :
    (segments.flatMap lexemes).map Lexeme.token = segments.flatMap tokens := by
  rw [List.map_flatMap]
  rfl

theorem starts_behind_junk (lexemes : List Lexeme) (isJunk : IsJunk (lexemes.map Lexeme.token))
    (others : List Segment)
    (apart : ∀ other ∈ others.head?, MayPrecede (.junk lexemes isJunk) other) :
    others.flatMap tokens = [] ∨ StatementStarts (others.flatMap tokens) := by
  cases others with
  | nil => exact .inl rfl
  | cons other rest =>
    cases other with
    | junk more moreJunk => exact (apart _ rfl).elim
    | statement form grammatical more spells =>
      have front : (Segment.statement form grammatical more spells).tokens = form.written.tokens :=
        spells
      rw [List.flatMap_cons, front]
      exact .inr (statementStarts_written form _)

theorem admits_behind_statement (form : StatementForm) (grammatical : form.Grammatical)
    (lexemes : List Lexeme) (spells : lexemes.map Lexeme.token = form.written.tokens)
    (others : List Segment)
    (apart : ∀ other ∈ others.head?,
      MayPrecede (.statement form grammatical lexemes spells) other) :
    form.Admits (others.flatMap tokens).head? := by
  cases others with
  | nil => exact form.admits_of_ne _ (by simp)
  | cons other rest =>
    have admits := apart other rfl
    rw [List.flatMap_cons]
    cases other with
    | statement next nextGrammatical more nextSpells =>
      have front : (Segment.statement next nextGrammatical more nextSpells).tokens =
          next.written.tokens := nextSpells
      rw [front]
      exact form.admits_of_ne _ (statementStarts_written next _).head_ne.1
    | junk more moreJunk =>
      have front : (Segment.junk more moreJunk).tokens = more.map Lexeme.token := rfl
      rw [front, List.head?_append_of_ne_nil _ moreJunk.some]
      exact admits

/-- Reading fails at the token, with that fault. -/
def FailsAt (tokens : List Token) (start : Nat) (fault : Fault) : Prop :=
  (Parser.statement .on (.ofIndex tokens start)).outcome = .error fault

/-- Segment after segment is taken in one step, and only junk leaves a fault. -/
theorem repeats_segments (all : List Token) (segments : List Segment)
    (apart : segments.IsChain MayPrecede) (cursor next : Cursor)
    (place : cursor = .ofIndex all cursor.index)
    (spans : Spans cursor (segments.flatMap tokens) next) (ended : next.rest = []) :
    ∃ faults, Repeats (documentStep .on) cursor faults (steps cursor.index segments) next ∧
      List.Forall₂ (FailsAt all) (junkStarts cursor.index segments) faults := by
  induction segments generalizing cursor with
  | nil =>
    obtain rfl := (spans_nil cursor next).mp spans
    exact ⟨[], .done, .nil⟩
  | cons segment others ih =>
    obtain ⟨follows, apart⟩ := List.isChain_cons.mp apart
    rw [List.flatMap_cons] at spans
    obtain ⟨middle, first, later⟩ := (spans_append _ _ _ _).mp spans
    have behind : middle.rest = others.flatMap tokens := by
      rw [later.1, ended, List.append_nil]
    have stop : middle.index = cursor.index + segment.lexemes.length := by
      rw [first.2, Segment.tokens, List.length_map]
    rw [place] at first
    obtain ⟨faults, rest, reports⟩ := ih apart middle first.place later
    rw [stop] at rest reports
    cases segment with
    | statement form grammatical lexemes spells =>
      have admits := admits_behind_statement form grammatical lexemes spells others follows
      have span : Spans cursor form.written.tokens middle := by
        rw [place, ← spells]
        exact first
      have size : lexemes.length = form.written.tokens.length := by
        rw [← spells, List.length_map]
      obtain ⟨hint, read⟩ := documentStep_grammatical form grammatical cursor middle span
        (by rw [behind]; exact admits)
      have step : form.step.tree cursor.index =
          (Segment.statement form grammatical lexemes spells).step cursor.index := by
        rw [Segment.step, Segment.lexemes, size]
        rfl
      rw [step] at read
      exact ⟨faults, .more read rest, reports⟩
    | junk lexemes isJunk =>
      have ends := starts_behind_junk lexemes isJunk others follows
      obtain ⟨fault, hint, failed, read⟩ := documentStep_junk cursor middle _ isJunk
        (by rw [place]; exact first) (by rw [behind]; exact ends)
      rw [stop] at read
      rw [place] at failed
      exact ⟨fault :: faults, .more read rest, .cons failed reports⟩

theorem readSteps_segments (segments : List Segment) (apart : segments.IsChain MayPrecede) :
    ∃ faults, readSteps .on (segments.flatMap tokens) = (some (steps 0 segments), faults) ∧
      List.Forall₂ (FailsAt (segments.flatMap tokens)) (junkStarts 0 segments) faults := by
  let all := segments.flatMap tokens
  have spans : Spans (.start all) all ⟨all.length, []⟩ :=
    ⟨(List.append_nil _).symm, (Nat.zero_add _).symm⟩
  obtain ⟨faults, repeats, reports⟩ :=
    repeats_segments all segments apart (.start all) _ rfl spans rfl
  exact ⟨faults, readSteps_of_repeats all faults _ _ repeats rfl, reports⟩

/-! ## What is gathered -/

/-- Skipping adds nothing to the tree. -/
theorem foldl_trees (segments : List Segment) (start : Nat) (file : BuildFile Nat) :
    ((steps start segments).map Step.statement).foldl BuildFile.add file =
      (trees start segments).foldl BuildFile.add file := by
  induction segments generalizing start file with
  | nil => rfl
  | cons segment others ih =>
    rw [steps, trees, List.map_cons, List.foldl_cons, ih, List.foldl_append]
    cases segment with
    | statement form grammatical lexemes spells => rfl
    | junk lexemes isJunk => rfl

theorem assemble_trees (segments : List Segment) :
    (assemble (steps 0 segments)).file = .ofStatements (trees 0 segments) := by
  rw [assemble, file_foldl, foldl_trees]
  exact BuildFile.foldl_add _

end Segment

/-! ## What is remarked -/

/-- Statements of one kind. -/
inductive SameKind : Statement Nat → Statement Nat → Prop where
  | load (first second : Load Nat) : SameKind (.load first) (.load second)
  | rule (first second : Rule Nat) : SameKind (.rule first) (.rule second)
  | declaration (first second : Declaration Nat) :
      SameKind (.declaration first) (.declaration second)
  | package (first second : Package Nat) : SameKind (.package first) (.package second)
  | packageGroup (first second : PackageGroup Nat) :
      SameKind (.packageGroup first) (.packageGroup second)
  | exportsFiles (first second : ExportsFiles Nat) :
      SameKind (.exportsFiles first) (.exportsFiles second)

/-- A derivation stands for statements of one kind, wherever it is written. -/
theorem StatementForm.sameKind (form : StatementForm) (start other : Nat) :
    SameKind (form.written.tree start) (form.written.tree other) := by
  match form with
  | .load _ => exact .load _ _
  | .package _ => exact .package _ _
  | .packageGroup _ => exact .packageGroup _ _
  | .body (.exportsFiles _) => exact .exportsFiles _ _
  | .body (.rule _) => exact .rule _ _
  | .body (.declaration _) => exact .declaration _ _

/-- Assemblies that no later statement tells apart, with the same remarks but for how
their tokens are numbered. -/
structure Assembly.Alike (place other : Nat → Position) (first second : Assembly) : Prop where
  phase : first.phase = second.phase
  package : first.file.package.isSome = second.file.package.isSome
  packageGroup : first.file.packageGroup.isSome = second.file.packageGroup.isSome
  remarks : first.remarks.map (Remark.toDiagnostic place) =
    second.remarks.map (Remark.toDiagnostic other)

namespace Assembly

variable {place other : Nat → Position} {first second : Assembly}

theorem add_skipped (assembly : Assembly) (start stop : Nat) :
    assembly.add ⟨start, stop, .skipped⟩ = assembly := by
  simp [Assembly.add, misplacement?, Statement.phase?, BuildFile.add]

theorem Alike.misplacement (alike : Alike place other first second)
    (statement later : Statement Nat) (same : SameKind statement later) :
    first.misplacement? statement = second.misplacement? later := by
  cases same with
  | load | rule | declaration | exportsFiles => simp only [misplacement?, alike.phase]
  | package => simp only [misplacement?, alike.phase, alike.package]
  | packageGroup => simp only [misplacement?, alike.packageGroup]

theorem Alike.add (alike : Alike place other first second) (step later : Step)
    (same : SameKind step.statement later.statement)
    (start : place step.start = other later.start) :
    Alike place other (first.add step) (second.add later) := by
  obtain ⟨begin, stop, statement⟩ := step
  obtain ⟨laterBegin, laterStop, laterStatement⟩ := later
  have misplaced := alike.misplacement _ _ same
  have remarks : (first.add ⟨begin, stop, statement⟩).remarks.map (Remark.toDiagnostic place) =
      (second.add ⟨laterBegin, laterStop, laterStatement⟩).remarks.map
        (Remark.toDiagnostic other) := by
    have described : statement.describe = laterStatement.describe := by
      cases same <;> rfl
    simp only [Assembly.add, List.map_append, alike.remarks]
    dsimp only at misplaced start
    rw [misplaced, described]
    cases second.misplacement? laterStatement with
    | none => rfl
    | some misplacement => simp [Remark.toDiagnostic, start]
  cases same with
  | load | rule | declaration | exportsFiles =>
    exact ⟨by simp [Assembly.add, Statement.phase?, alike.phase], alike.package,
      alike.packageGroup, remarks⟩
  | package =>
    exact ⟨by simp [Assembly.add, Statement.phase?, alike.phase], rfl, alike.packageGroup, remarks⟩
  | packageGroup =>
    exact ⟨by simp [Assembly.add, Statement.phase?, alike.phase], alike.package, rfl, remarks⟩

end Assembly

/-- A part of a token list begins at the same place whatever stands around it. -/
theorem tokenPosition_part (lines : LineIndex) (part : List Lexeme) (some : part ≠ [])
    (front back other rest : List Lexeme) :
    tokenPosition lines (front ++ (part ++ back)).toArray front.length =
      tokenPosition lines (other ++ (part ++ rest)).toArray other.length := by
  obtain ⟨lexeme, more, rfl⟩ := List.exists_cons_of_ne_nil some
  simp [tokenPosition]

namespace Segment

/-- The segments that are statements. -/
def kept (segments : List Segment) : List Segment :=
  segments.filter fun segment => !segment.isJunk

theorem kept_plain (segments : List Segment) :
    ∀ segment ∈ kept segments, segment.isJunk = false := by
  intro segment member
  simpa using (List.mem_filter.mp member).2

theorem mayPrecede_plain (first second : Segment) (plain : second.isJunk = false) :
    MayPrecede first second := by
  cases second with
  | statement => cases first <;> trivial
  | junk => cases plain

theorem plain_apart (segments : List Segment)
    (plain : ∀ segment ∈ segments, segment.isJunk = false) : segments.IsChain MayPrecede := by
  induction segments with
  | nil => exact .nil
  | cons segment others ih =>
    have rest := ih fun other member => plain other (List.mem_cons_of_mem segment member)
    refine List.isChain_cons.mpr ⟨?_, rest⟩
    intro other first
    have member : other ∈ others := List.mem_of_head? first
    exact mayPrecede_plain segment other (plain other (List.mem_cons_of_mem segment member))

theorem plain_junkStarts (segments : List Segment) (start : Nat)
    (plain : ∀ segment ∈ segments, segment.isJunk = false) : junkStarts start segments = [] := by
  induction segments generalizing start with
  | nil => rfl
  | cons segment others ih =>
    have first := plain segment (by simp)
    have rest := ih (start + segment.lexemes.length)
      fun other member => plain other (List.mem_cons_of_mem segment member)
    simp [junkStarts, first, rest]

theorem length_junkStarts (segments : List Segment) (start : Nat) :
    (junkStarts start segments).length = segments.countP isJunk := by
  induction segments generalizing start with
  | nil => rfl
  | cons segment others ih =>
    rw [junkStarts, List.length_append, ih, List.countP_cons]
    cases segment with
    | statement => simp [isJunk]
    | junk => simp [isJunk, Nat.add_comm]

theorem statement_some (form : StatementForm) (lexemes : List Lexeme)
    (spells : lexemes.map Lexeme.token = form.written.tokens) : lexemes ≠ [] := by
  rintro rfl
  have starts := statementStarts_written form []
  rw [← spells] at starts
  exact starts

/-- What is remarked on statements does not depend on the junk between them. -/
theorem foldl_kept (lines : LineIndex) (segments : List Segment) (front other : List Lexeme)
    (all alone : List Lexeme) (whole : all = front ++ segments.flatMap lexemes)
    (rest : alone = other ++ (kept segments).flatMap lexemes) (first second : Assembly)
    (alike : Assembly.Alike (tokenPosition lines all.toArray) (tokenPosition lines alone.toArray)
      first second) :
    Assembly.Alike (tokenPosition lines all.toArray) (tokenPosition lines alone.toArray)
      ((steps front.length segments).foldl Assembly.add first)
      ((steps other.length (kept segments)).foldl Assembly.add second) := by
  induction segments generalizing front other first second with
  | nil => exact alike
  | cons segment others ih =>
    cases segment with
    | junk lexemes isJunk =>
      have same : kept (.junk lexemes isJunk :: others) = kept others := rfl
      have skip : steps front.length (.junk lexemes isJunk :: others) =
          ⟨front.length, front.length + lexemes.length, .skipped⟩ ::
            steps (front.length + lexemes.length) others := rfl
      rw [same] at rest ⊢
      rw [skip, List.foldl_cons, Assembly.add_skipped, ← List.length_append]
      refine ih (front ++ lexemes) other ?_ rest first second alike
      rw [whole, List.flatMap_cons, List.append_assoc]
      rfl
    | statement form grammatical lexemes spells =>
      have same : kept (.statement form grammatical lexemes spells :: others) =
          .statement form grammatical lexemes spells :: kept others := rfl
      rw [same] at rest ⊢
      rw [List.flatMap_cons] at whole rest
      rw [steps, steps, List.foldl_cons, List.foldl_cons]
      have start : tokenPosition lines all.toArray front.length =
          tokenPosition lines alone.toArray other.length := by
        rw [whole, rest]
        exact tokenPosition_part lines lexemes (statement_some form lexemes spells) front _ other _
      have next := alike.add
        (Segment.step front.length (.statement form grammatical lexemes spells))
        (Segment.step other.length (.statement form grammatical lexemes spells))
        (form.sameKind _ _) start
      have size (before : List Lexeme) :
          before.length + (Segment.statement form grammatical lexemes spells).lexemes.length =
            (before ++ lexemes).length := List.length_append.symm
      rw [size, size]
      refine ih (front ++ lexemes) (other ++ lexemes) ?_ ?_ _ _ next
      · rw [whole, List.append_assoc]
        rfl
      · rw [rest, List.append_assoc]
        rfl

theorem remarks_kept (segments : List Segment) (lines : LineIndex) :
    (assemble (steps 0 segments)).remarks.map (Remark.toDiagnostic
        (tokenPosition lines (segments.flatMap lexemes).toArray)) =
      (assemble (steps 0 (kept segments))).remarks.map (Remark.toDiagnostic
        (tokenPosition lines ((kept segments).flatMap lexemes).toArray)) :=
  (foldl_kept lines segments [] [] _ _ rfl rfl {} {} ⟨rfl, rfl, rfl, rfl⟩).remarks

/-! ## Whole token lists -/

theorem parseTokensRecovering_steps (segments : List Segment)
    (apart : segments.IsChain MayPrecede) (source : String) :
    ∃ faults,
      List.Forall₂ (FailsAt (segments.flatMap tokens)) (junkStarts 0 segments) faults ∧
      parseTokensRecovering (segments.flatMap lexemes) source =
        ⟨some ((BuildFile.ofStatements (trees 0 segments)).mapPosition
            (tokenPosition (.ofSource source) (segments.flatMap lexemes).toArray)),
          Diagnostic.sort ((faults.map Fault.toRemark ++ (assemble (steps 0 segments)).remarks).map
            (Remark.toDiagnostic
              (tokenPosition (.ofSource source) (segments.flatMap lexemes).toArray)))⟩ := by
  obtain ⟨faults, read, reports⟩ := readSteps_segments segments apart
  refine ⟨faults, reports, ?_⟩
  rw [← tokens_flatMap] at read
  simp [parseTokensRecovering, parseLexemes, readTokens, read, assemble_trees]

/-- Statements alone are remarked on for their places only. -/
theorem parseTokensRecovering_kept (segments : List Segment) (source : String) :
    (parseTokensRecovering ((kept segments).flatMap lexemes) source).diagnostics =
      Diagnostic.sort ((assemble (steps 0 (kept segments))).remarks.map (Remark.toDiagnostic
        (tokenPosition (.ofSource source) ((kept segments).flatMap lexemes).toArray))) := by
  have plain := kept_plain segments
  obtain ⟨faults, reports, parsed⟩ :=
    parseTokensRecovering_steps (kept segments) (plain_apart _ plain) source
  rw [plain_junkStarts _ 0 plain] at reports
  cases reports
  rw [parsed]
  rfl

end Segment

open Segment

/-- Independent errors are reported independently.  Of statements and runs of junk that
take turns, the statements make up the tree, each as it is read at its place; every run
of junk gives one diagnostic, which is that of the failure where it begins; and the
others are what the statements are told about their order when no junk is there. -/
theorem parseTokensRecovering_segments (segments : List Segment)
    (apart : segments.IsChain MayPrecede) (source : String) :
    (parseTokensRecovering (segments.flatMap lexemes) source).file =
      some ((BuildFile.ofStatements (trees 0 segments)).mapPosition
        (tokenPosition (.ofSource source) (segments.flatMap lexemes).toArray)) ∧
    ∃ junk : List Diagnostic,
      junk.length = segments.countP isJunk ∧
      List.Forall₂ (fun start diagnostic => ∃ fault,
          FailsAt (segments.flatMap tokens) start fault ∧
          diagnostic = fault.toRemark.toDiagnostic
            (tokenPosition (.ofSource source) (segments.flatMap lexemes).toArray))
        (junkStarts 0 segments) junk ∧
      (parseTokensRecovering (segments.flatMap lexemes) source).diagnostics.Perm
        (junk ++ (parseTokensRecovering ((kept segments).flatMap lexemes) source).diagnostics) ∧
      (parseTokensRecovering ((kept segments).flatMap lexemes) source).diagnostics =
        Diagnostic.sort ((assemble (steps 0 (kept segments))).remarks.map (Remark.toDiagnostic
          (tokenPosition (.ofSource source) ((kept segments).flatMap lexemes).toArray))) := by
  obtain ⟨faults, reports, parsed⟩ := parseTokensRecovering_steps segments apart source
  have alone := parseTokensRecovering_kept segments source
  refine ⟨by rw [parsed], faults.map fun fault => fault.toRemark.toDiagnostic
    (tokenPosition (.ofSource source) (segments.flatMap lexemes).toArray), ?_, ?_, ?_, alone⟩
  · rw [List.length_map, ← reports.length_eq, length_junkStarts]
  · rw [List.forall₂_map_right_iff]
    exact reports.imp fun start fault failed => ⟨fault, failed, rfl⟩
  · rw [parsed, alone]
    dsimp only
    rw [← remarks_kept, List.map_append, List.map_map]
    refine (List.mergeSort_perm _ _).trans ?_
    exact List.Perm.append_left _ (List.mergeSort_perm _ _).symm

theorem isJunk_mark (lexeme : Token) (noLoad : lexeme ≠ .load) : IsJunk [lexeme] where
  some := by simp
  noLoad := by simpa using noLoad.symm
  noName front back name sign split := by
    have lengths := congrArg List.length split
    simp only [List.length_append, List.length_cons, List.length_nil] at lengths
    omega

/-- `) exported = select , load("a", "b")`, the last of which comes too late. -/
def mixedSegments : List Segment :=
  [.junk [⟨.rightParen, 0, 1⟩] (isJunk_mark _ (by simp)),
    .statement (.body (.declaration ⟨"exported", .identifier "select"⟩)) (fun _ => rfl)
      [⟨.identifier "exported", 2, 10⟩, ⟨.equals, 11, 12⟩, ⟨.identifier "select", 13, 19⟩] rfl,
    .junk [⟨.comma, 20, 21⟩] (isJunk_mark _ (by simp)),
    .statement (.load ⟨"\"a\"", ⟨[.plain "\"b\""], false⟩⟩) (fun _ => rfl)
      [⟨.load, 22, 26⟩, ⟨.leftParen, 26, 27⟩, ⟨.string "\"a\"", 27, 30⟩, ⟨.comma, 30, 31⟩,
        ⟨.string "\"b\"", 32, 35⟩, ⟨.rightParen, 35, 36⟩] rfl]

theorem mixedSegments_apart : mixedSegments.IsChain MayPrecede := by
  refine .cons_cons trivial (.cons_cons ?_ (.cons_cons trivial (.singleton _)))
  intro _
  simp

/-- Two runs of junk and one late load make for three diagnostics. -/
theorem parseTokensRecovering_segments_mixed :
    mixedSegments.IsChain MayPrecede ∧
      (parseTokensRecovering (mixedSegments.flatMap lexemes)
        ") exported = select , load(\"a\", \"b\")").diagnostics.length = 3 := by
  refine ⟨mixedSegments_apart, ?_⟩
  obtain ⟨_, junk, count, _, told, late⟩ := parseTokensRecovering_segments mixedSegments
    mixedSegments_apart ") exported = select , load(\"a\", \"b\")"
  rw [told.length_eq, late, List.length_append, count, Diagnostic.sort, List.length_mergeSort,
    List.length_map]
  rfl

end BuildLang
