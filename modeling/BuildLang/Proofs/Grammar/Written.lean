import BuildLang.Proofs.Grammar.Reads

/-!
# Written stretches

What a grammar says about a stretch of tokens, apart from how it is read: the
tokens, the tree they stand for when the first of them has a given index, and
the commas among them that the list they stand in does not admit.
-/

set_option autoImplicit false

namespace BuildLang

structure Written (α : Type) where
  tokens : List Token
  tree : Nat → α
  surplus : Nat → List SurplusComma

namespace Written

variable {α β : Type}

/-- A single token. -/
def leaf (lexeme : Token) (tree : Nat → α) : Written α :=
  ⟨[lexeme], tree, fun _ => []⟩

def mapAt (f : Nat → α → β) (inner : Written α) : Written β :=
  ⟨inner.tokens, fun start => f start (inner.tree start), inner.surplus⟩

def map (f : α → β) (inner : Written α) : Written β :=
  inner.mapAt fun _ => f

/-- Fixed tokens in front. -/
def behind (front : List Token) (inner : Written α) : Written α :=
  ⟨front ++ inner.tokens, fun start => inner.tree (start + front.length),
    fun start => inner.surplus (start + front.length)⟩

/-- Fixed tokens behind. -/
def before (inner : Written α) (back : List Token) : Written α :=
  ⟨inner.tokens ++ back, inner.tree, inner.surplus⟩

def between (opening closing : Token) (inner : Written α) : Written α :=
  ⟨opening :: (inner.tokens ++ [closing]), fun start => inner.tree (start + 1),
    fun start => inner.surplus (start + 1)⟩

def seq (first : Written α) (second : Written β) : Written (α × β) :=
  ⟨first.tokens ++ second.tokens,
    fun start => (first.tree start, second.tree (start + first.tokens.length)),
    fun start => first.surplus start ++ second.surplus (start + first.tokens.length)⟩

def optional : Option (Written α) → Written (Option α)
  | none => ⟨[], fun _ => none, fun _ => []⟩
  | some inner => inner.map some

@[simp]
theorem tokens_leaf (lexeme : Token) (tree : Nat → α) : (leaf lexeme tree).tokens = [lexeme] :=
  rfl

@[simp]
theorem tokens_mapAt (f : Nat → α → β) (inner : Written α) :
    (inner.mapAt f).tokens = inner.tokens :=
  rfl

@[simp]
theorem tokens_map (f : α → β) (inner : Written α) : (inner.map f).tokens = inner.tokens :=
  rfl

@[simp]
theorem tokens_behind (front : List Token) (inner : Written α) :
    (inner.behind front).tokens = front ++ inner.tokens :=
  rfl

@[simp]
theorem tokens_before (inner : Written α) (back : List Token) :
    (inner.before back).tokens = inner.tokens ++ back :=
  rfl

@[simp]
theorem tokens_between (opening closing : Token) (inner : Written α) :
    (inner.between opening closing).tokens = opening :: (inner.tokens ++ [closing]) :=
  rfl

@[simp]
theorem tokens_seq (first : Written α) (second : Written β) :
    (first.seq second).tokens = first.tokens ++ second.tokens :=
  rfl

/-! ## Lists -/

/-- An item, and each further one behind a comma. -/
def itemTokens : List (Written α) → List Token
  | [] => []
  | first :: others => first.tokens ++ others.flatMap (fun item => .comma :: item.tokens)

theorem itemTokens_cons_cons (first second : Written α) (others : List (Written α)) :
    itemTokens (first :: second :: others) =
      first.tokens ++ .comma :: itemTokens (second :: others) := by
  simp [itemTokens]

/-- The trees of items that start at `start`, with a comma behind each. -/
def itemTrees : Nat → List (Written α) → List α
  | _, [] => []
  | start, item :: others =>
      item.tree start :: itemTrees (start + item.tokens.length + 1) others

def itemSurplus : Nat → List (Written α) → List SurplusComma
  | _, [] => []
  | start, item :: others =>
      item.surplus start ++ itemSurplus (start + item.tokens.length + 1) others

/-- A comma behind the last item, where there is one and it is asked for. -/
def trailingComma (items : List (Written α)) (comma : Bool) : List Token :=
  if comma && !items.isEmpty then [.comma] else []

/-- What a list thinks of commas behind its last item. -/
def trailingSurplus (trailing : TrailingComma) (index : Nat) : List SurplusComma :=
  match trailing with
  | .allowed => []
  | .rejected list => [⟨index, list⟩]

/-- Items parted by commas, and one more comma behind them if `comma` says so. -/
def list (trailing : TrailingComma) (items : List (Written α)) (comma : Bool) :
    Written (List α) :=
  ⟨itemTokens items ++ trailingComma items comma, fun start => itemTrees start items,
    fun start => itemSurplus start items ++
      if comma && !items.isEmpty then
        trailingSurplus trailing (start + (itemTokens items).length)
      else []⟩

end Written

/-- The derivation of a comma list: its items, and whether a comma stands behind
the last one. -/
structure ListForm (σ : Type) where
  items : List σ
  comma : Bool

def ListForm.written {σ α : Type} (trailing : TrailingComma) (write : σ → Written α)
    (form : ListForm σ) : Written (List α) :=
  .list trailing (form.items.map write) form.comma

namespace Parser

variable {α β : Type}

/-- The parser reads the written stretch wherever it stands, provided that the
token behind it is one of those that `follow` admits. -/
def ReadsWritten (parser : Parser α) (written : Written α) (follow : Option Token → Prop) :
    Prop :=
  ∀ cursor next, Spans cursor written.tokens next → follow next.rest.head? →
    Reads parser cursor (written.surplus cursor.index) (written.tree cursor.index) next

/-- Every value that the parser reads without a fault is written in one of the
forms. -/
def ReadsOnly {σ : Type} (parser : Parser α) (write : σ → Written α) : Prop :=
  ∀ cursor value next, Reads parser cursor [] value next → ∃ form,
    Spans cursor (write form).tokens next ∧ (write form).tree cursor.index = value ∧
      (write form).surplus cursor.index = []

/-! ## Written stretches and what reads them -/

section

variable {parser : Parser α} {written : Written α} {follow : Option Token → Prop}

theorem ReadsWritten.weaken {stricter : Option Token → Prop}
    (reads : ReadsWritten parser written follow)
    (implied : ∀ found, stricter found → follow found) :
    ReadsWritten parser written stricter :=
  fun cursor next spans found => reads cursor next spans (implied _ found)

theorem readsWritten_accept (expected : List Expected) (read : Token → Option α) (lexeme : Token)
    (value : α) (known : read lexeme = some value) :
    ReadsWritten (accept expected read) (.leaf lexeme fun _ => value) follow := by
  intro cursor next spans _
  exact (reads_accept _ _ _ _ _ _).mpr ⟨rfl, lexeme, spans, known⟩

theorem ReadsWritten.mapAt (f : Nat → α → β) (reads : ReadsWritten parser written follow) :
    ReadsWritten (parser.mapAt f) (written.mapAt f) follow := by
  intro cursor next spans found
  exact (reads_mapAt _ _ _ _ _ _).mpr ⟨_, reads cursor next spans found, rfl⟩

theorem ReadsWritten.map (f : α → β) (reads : ReadsWritten parser written follow) :
    ReadsWritten (parser.map f) (written.map f) follow := by
  intro cursor next spans found
  exact (reads_map _ _ _ _ _ _).mpr ⟨_, reads cursor next spans found, rfl⟩

theorem ReadsWritten.within (part : Part) (reads : ReadsWritten parser written follow) :
    ReadsWritten (parser.within part) written follow := by
  intro cursor next spans found
  exact (reads_within _ _ _ _ _ _).mpr (reads cursor next spans found)

theorem ReadsWritten.between (opening closing : Token)
    (reads : ReadsWritten parser written (· = some closing)) :
    ReadsWritten (parser.between opening closing) (written.between opening closing) follow := by
  intro cursor next spans _
  obtain ⟨start, opened, spans⟩ := (spans_cons _ _ _ _).mp spans
  obtain ⟨stop, inner, closed⟩ := (spans_append _ _ _ _).mp spans
  have read := reads start stop inner (by rw [closed.1]; rfl)
  rw [opened.2] at read
  exact (reads_between _ _ _ _ _ _ _).mpr ⟨start, stop, opened, read, closed⟩

theorem ReadsWritten.behind (lexeme : Token) (reads : ReadsWritten parser written follow) :
    ReadsWritten ((exactly lexeme).seqRight parser) (written.behind [lexeme]) follow := by
  intro cursor next spans found
  obtain ⟨start, token, inner⟩ := (spans_append _ _ _ _).mp spans
  have read := reads start next inner found
  rw [token.2] at read
  exact (reads_behind _ _ _ _ _ _).mpr ⟨start, token, read⟩

/-- Tokens in front that the first parser reads and nobody looks at. -/
theorem ReadsWritten.seqRight {ignored : Parser β} {front : Written β}
    (reads : ReadsWritten parser written follow) (clean : ∀ start, front.surplus start = [])
    (skips : ReadsWritten ignored front fun _ => True) :
    ReadsWritten (ignored.seqRight parser) (written.behind front.tokens) follow := by
  intro cursor next spans found
  obtain ⟨start, token, inner⟩ := (spans_append _ _ _ _).mp spans
  have skip := skips cursor start token trivial
  have read := reads start next inner found
  rw [clean] at skip
  rw [token.2] at read
  exact (reads_seqRight _ _ _ _ _ _).mpr ⟨start, [], _, _, skip, read, rfl⟩

theorem ReadsWritten.before (lexeme : Token)
    (reads : ReadsWritten parser written (· = some lexeme)) :
    ReadsWritten (parser.seqLeft (exactly lexeme)) (written.before [lexeme]) follow := by
  intro cursor next spans _
  obtain ⟨stop, inner, token⟩ := (spans_append _ _ _ _).mp spans
  have read := reads cursor stop inner (by rw [token.1]; rfl)
  exact (reads_before _ _ _ _ _ _).mpr ⟨stop, read, token⟩

theorem ReadsWritten.seq {second : Parser β} {other : Written β}
    {between : Option Token → Prop} (first : ReadsWritten parser written between)
    (reads : ReadsWritten second other follow)
    (begins : ∀ cursor next, Spans cursor other.tokens next → follow next.rest.head? →
      between cursor.rest.head?) :
    ReadsWritten (parser.seq second) (written.seq other) follow := by
  intro cursor next spans found
  obtain ⟨middle, front, back⟩ := (spans_append _ _ _ _).mp spans
  have left := first cursor middle front (begins middle next back found)
  have right := reads middle next back found
  rw [front.2] at right
  exact (reads_seq _ _ _ _ _ _).mpr ⟨middle, _, _, left, right, rfl⟩

/-- An alternative of a choice, where those before it refuse. -/
theorem ReadsWritten.choice (front : List (Parser α)) (back : List (Parser α))
    (reads : ReadsWritten parser written follow)
    (refuse : ∀ other ∈ front, ∀ cursor next, Spans cursor written.tokens next →
      follow next.rest.head? → Refuses other cursor) :
    ReadsWritten (choice (front ++ parser :: back)) written follow := by
  intro cursor next spans found
  exact reads_choice front parser back cursor next _ _
    (fun other member => refuse other member cursor next spans found)
    (reads cursor next spans found)

theorem ReadsWritten.orElse_first (second : Parser α)
    (reads : ReadsWritten parser written follow)
    (refuses : ∀ cursor next, Spans cursor written.tokens next → Refuses second cursor) :
    ReadsWritten (parser.orElse second) written follow := by
  intro cursor next spans found
  exact reads_orElse_first _ _ _ _ _ _ (refuses cursor next spans) (reads cursor next spans found)

theorem ReadsWritten.orElse_second (first : Parser α)
    (reads : ReadsWritten parser written follow)
    (refuses : ∀ cursor next, Spans cursor written.tokens next → Refuses first cursor) :
    ReadsWritten (first.orElse parser) written follow := by
  intro cursor next spans found
  exact reads_orElse_second _ _ _ _ _ _ (refuses cursor next spans)
    (reads cursor next spans found)

theorem ReadsWritten.optional_some (reads : ReadsWritten parser written follow) :
    ReadsWritten (Parser.optional parser) (.optional (some written)) follow := by
  intro cursor next spans found
  exact reads_optional_some _ _ _ _ _ (reads cursor next spans found)

theorem readsWritten_optional_none (parser : Parser α)
    (refuses : ∀ cursor : Cursor, follow cursor.rest.head? → Refuses parser cursor) :
    ReadsWritten (Parser.optional parser) (.optional none) follow := by
  intro cursor next spans found
  obtain rfl := (spans_nil cursor next).mp spans
  exact reads_optional_none parser next (refuses next found)

end

section

variable {σ : Type} {parser : Parser α} {write : σ → Written α}

theorem ReadsOnly.rewrite {τ : Type} {other : τ → Written α} (only : ReadsOnly parser write)
    (form : σ → τ) (same : ∀ source, other (form source) = write source) :
    ReadsOnly parser other := by
  intro cursor value next reads
  obtain ⟨source, found⟩ := only cursor value next reads
  exact ⟨form source, by rw [same]; exact found⟩

theorem ReadsOnly.mapAt (f : Nat → α → β) (only : ReadsOnly parser write) :
    ReadsOnly (parser.mapAt f) (fun form => (write form).mapAt f) := by
  intro cursor value next reads
  obtain ⟨inner, innerReads, rfl⟩ := (reads_mapAt _ _ _ _ _ _).mp reads
  obtain ⟨form, spans, rfl, surplus⟩ := only cursor inner next innerReads
  exact ⟨form, spans, rfl, surplus⟩

theorem ReadsOnly.map (f : α → β) (only : ReadsOnly parser write) :
    ReadsOnly (parser.map f) (fun form => (write form).map f) := by
  intro cursor value next reads
  obtain ⟨inner, innerReads, rfl⟩ := (reads_map _ _ _ _ _ _).mp reads
  obtain ⟨form, spans, rfl, surplus⟩ := only cursor inner next innerReads
  exact ⟨form, spans, rfl, surplus⟩

theorem ReadsOnly.within (part : Part) (only : ReadsOnly parser write) :
    ReadsOnly (parser.within part) write :=
  fun cursor value next reads => only cursor value next ((reads_within _ _ _ _ _ _).mp reads)

theorem ReadsOnly.between (opening closing : Token) (only : ReadsOnly parser write) :
    ReadsOnly (parser.between opening closing)
      (fun form => (write form).between opening closing) := by
  intro cursor value next reads
  obtain ⟨start, stop, opened, inner, closed⟩ := (reads_between _ _ _ _ _ _ _).mp reads
  obtain ⟨form, spans, rfl, surplus⟩ := only start value stop inner
  have startIndex : start.index = cursor.index + 1 := opened.2
  refine ⟨form, ?_, ?_, ?_⟩
  · exact (spans_cons _ _ _ _).mpr
      ⟨start, opened, (spans_append _ _ _ _).mpr ⟨stop, spans, closed⟩⟩
  · rw [startIndex]
    rfl
  · rw [startIndex] at surplus
    exact surplus

theorem ReadsOnly.behind (lexeme : Token) (only : ReadsOnly parser write) :
    ReadsOnly ((exactly lexeme).seqRight parser) (fun form => (write form).behind [lexeme]) := by
  intro cursor value next reads
  obtain ⟨start, token, inner⟩ := (reads_behind _ _ _ _ _ _).mp reads
  obtain ⟨form, spans, rfl, surplus⟩ := only start value next inner
  have startIndex : start.index = cursor.index + 1 := token.2
  refine ⟨form, ?_, ?_, ?_⟩
  · exact (spans_append _ _ _ _).mpr ⟨start, token, spans⟩
  · rw [startIndex]
    rfl
  · rw [startIndex] at surplus
    exact surplus

/-- Tokens in front that nobody looks at. -/
theorem ReadsOnly.seqRight {τ : Type} {ignored : Parser β} {front : τ → Written β}
    (only : ReadsOnly parser write) (skips : ReadsOnly ignored front) :
    ReadsOnly (ignored.seqRight parser)
      (fun form : τ × σ => (write form.2).behind (front form.1).tokens) := by
  intro cursor value next reads
  obtain ⟨start, early, late, _, skip, inner, none⟩ := (reads_seqRight _ _ _ _ _ _).mp reads
  obtain ⟨rfl, rfl⟩ := List.append_eq_nil_iff.mp none.symm
  obtain ⟨skipped, token, _, _⟩ := skips cursor _ start skip
  obtain ⟨form, spans, rfl, surplus⟩ := only start value next inner
  have startIndex : start.index = cursor.index + (front skipped).tokens.length := token.2
  refine ⟨(skipped, form), ?_, ?_, ?_⟩
  · exact (spans_append _ _ _ _).mpr ⟨start, token, spans⟩
  · rw [startIndex]
    rfl
  · rw [startIndex] at surplus
    exact surplus

theorem ReadsOnly.before (lexeme : Token) (only : ReadsOnly parser write) :
    ReadsOnly (parser.seqLeft (exactly lexeme)) (fun form => (write form).before [lexeme]) := by
  intro cursor value next reads
  obtain ⟨stop, inner, token⟩ := (reads_before _ _ _ _ _ _).mp reads
  obtain ⟨form, spans, tree, surplus⟩ := only cursor value stop inner
  exact ⟨form, (spans_append _ _ _ _).mpr ⟨stop, spans, token⟩, tree, surplus⟩

theorem ReadsOnly.seq {τ : Type} {second : Parser β} {other : τ → Written β}
    (only : ReadsOnly parser write) (rest : ReadsOnly second other) :
    ReadsOnly (parser.seq second) (fun form : σ × τ => (write form.1).seq (other form.2)) := by
  intro cursor value next reads
  obtain ⟨middle, early, late, left, right, none⟩ := (reads_seq _ _ _ _ _ _).mp reads
  obtain ⟨rfl, rfl⟩ := List.append_eq_nil_iff.mp none.symm
  obtain ⟨form, spans, tree, surplus⟩ := only cursor value.1 middle left
  obtain ⟨later, laterSpans, laterTree, laterSurplus⟩ := rest middle value.2 next right
  have middleIndex : middle.index = cursor.index + (write form).tokens.length := spans.2
  rw [middleIndex] at laterTree laterSurplus
  refine ⟨(form, later), ?_, ?_, ?_⟩
  · exact (spans_append _ _ _ _).mpr ⟨middle, spans, laterSpans⟩
  · exact Prod.ext tree laterTree
  · exact List.append_eq_nil_iff.mpr ⟨surplus, laterSurplus⟩

theorem readsOnly_choice (alternatives : List (Parser α))
    (each : ∀ alternative ∈ alternatives, ReadsOnly alternative write) :
    ReadsOnly (choice alternatives) write := by
  intro cursor value next reads
  obtain ⟨alternative, member, chosen⟩ := choice_reads alternatives cursor next [] value reads
  exact each alternative member cursor value next chosen

theorem ReadsOnly.orElse {second : Parser α} (only : ReadsOnly parser write)
    (other : ReadsOnly second write) : ReadsOnly (parser.orElse second) write := by
  intro cursor value next reads
  rcases orElse_reads _ _ _ _ _ reads with chosen | chosen
  · exact only cursor value next chosen
  · exact other cursor value next chosen

theorem ReadsOnly.optional (only : ReadsOnly parser write) :
    ReadsOnly (Parser.optional parser)
      (fun form : Option σ => Written.optional (form.map write)) := by
  intro cursor value next reads
  rcases optional_reads _ _ _ _ _ reads with ⟨inner, rfl, chosen⟩ | ⟨rfl, _, rfl⟩
  · obtain ⟨form, spans, tree, surplus⟩ := only cursor inner next chosen
    exact ⟨some form, spans, congrArg some tree, surplus⟩
  · exact ⟨none, (spans_nil _ _).mpr rfl, rfl, rfl⟩

theorem readsOnly_accept (expected : List Expected) (read : Token → Option α)
    (write : σ → Written α)
    (known : ∀ lexeme value, read lexeme = some value →
      ∃ form, write form = .leaf lexeme fun _ => value) :
    ReadsOnly (accept expected read) write := by
  intro cursor value next reads
  obtain ⟨_, lexeme, spans, found⟩ := (reads_accept _ _ _ _ _ _).mp reads
  obtain ⟨form, written⟩ := known lexeme value found
  exact ⟨form, by rw [written]; exact spans, by rw [written]; rfl, by rw [written]; rfl⟩

end

end Parser

end BuildLang
