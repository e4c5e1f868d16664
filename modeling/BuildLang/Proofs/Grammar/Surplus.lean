import BuildLang.Proofs.Tree.CanonicalFile
import Mathlib.Data.List.Forall2

/-!
# Surplus commas

What it is for one written stretch to be another one without its surplus commas: the
tokens lack exactly these, and the trees differ in places only.  However stretches are put
together, this is kept.
-/

set_option autoImplicit false

namespace BuildLang

/-! ## Leaving items out -/

/-- The items but for those at the given indices, where the first has the index `start`. -/
def leaveOut {α : Type} (indices : List Nat) : Nat → List α → List α
  | _, [] => []
  | start, item :: rest =>
      if start ∈ indices then leaveOut indices (start + 1) rest
      else item :: leaveOut indices (start + 1) rest

section

variable {α β : Type}

theorem leaveOut_nil (start : Nat) (items : List α) : leaveOut [] start items = items := by
  induction items generalizing start with
  | nil => rfl
  | cons item rest ih => simp [leaveOut, ih]

theorem leaveOut_map (f : α → β) (indices : List Nat) (start : Nat) (items : List α) :
    leaveOut indices start (items.map f) = (leaveOut indices start items).map f := by
  induction items generalizing start with
  | nil => rfl
  | cons item rest ih =>
    rw [List.map_cons, leaveOut, leaveOut, ih]
    split
    · rfl
    · rfl

theorem leaveOut_append (indices : List Nat) (start : Nat) (first second : List α) :
    leaveOut indices start (first ++ second) =
      leaveOut indices start first ++ leaveOut indices (start + first.length) second := by
  induction first generalizing start with
  | nil => rfl
  | cons item rest ih =>
    have behind : start + (item :: rest).length = start + 1 + rest.length := by
      rw [List.length_cons]
      omega
    rw [List.cons_append, leaveOut, leaveOut, ih, behind]
    split
    · rfl
    · rfl

/-- Only indices of items count. -/
theorem leaveOut_congr (indices others : List Nat) (start : Nat) (items : List α)
    (same : ∀ index, start ≤ index → index < start + items.length →
      (index ∈ indices ↔ index ∈ others)) :
    leaveOut indices start items = leaveOut others start items := by
  induction items generalizing start with
  | nil => rfl
  | cons item rest ih =>
    rw [List.length_cons] at same
    have first := same start (by omega) (by omega)
    have later := ih (start + 1) fun index low high => same index (by omega) (by omega)
    rw [leaveOut, leaveOut, later]
    simp only [first]

theorem leaveOut_split (front back : List Nat) (start : Nat) (first second : List α)
    (inside : ∀ index ∈ front, index < start + first.length)
    (behind : ∀ index ∈ back, start + first.length ≤ index) :
    leaveOut (front ++ back) start (first ++ second) =
      leaveOut front start first ++ leaveOut back (start + first.length) second := by
  rw [leaveOut_append]
  congr 1
  · refine leaveOut_congr _ _ _ _ ?_
    intro index _ high
    rw [List.mem_append]
    refine or_iff_left ?_
    intro member
    have low := behind index member
    omega
  · refine leaveOut_congr _ _ _ _ ?_
    intro index low _
    rw [List.mem_append]
    refine or_iff_right ?_
    intro member
    have high := inside index member
    omega

end

/-! ## Surplus commas in their lists -/

/-- The token that ends a list. -/
def StrictList.closing : StrictList → Token
  | .array => .rightBracket
  | .rule => .rightParen
  | .load => .rightParen

/-- Among the tokens, of which the first has the index `start`, the comma stands right in
front of the end of its list. -/
def SurplusComma.Trails (comma : SurplusComma) (start : Nat) (tokens : List Token) : Prop :=
  ∃ front back, tokens = front ++ .comma :: comma.list.closing :: back ∧
    comma.index = start + front.length

theorem SurplusComma.Trails.before {comma : SurplusComma} {start : Nat} {tokens : List Token}
    (trails : comma.Trails start tokens) (more : List Token) :
    comma.Trails start (tokens ++ more) := by
  obtain ⟨front, back, rfl, place⟩ := trails
  exact ⟨front, back ++ more, by simp, place⟩

theorem SurplusComma.Trails.behind {comma : SurplusComma} {start : Nat} {tokens : List Token}
    (more : List Token) (trails : comma.Trails (start + more.length) tokens) :
    comma.Trails start (more ++ tokens) := by
  obtain ⟨front, back, rfl, place⟩ := trails
  refine ⟨more ++ front, back, by simp, ?_⟩
  rw [place, List.length_append, Nat.add_assoc]

namespace Written

variable {α β γ δ : Type}

/-- Tokens without a tree. -/
def fixed (tokens : List Token) : Written Unit :=
  ⟨tokens, fun _ => (), fun _ => []⟩

/-- A comma that the list it stands in does not admit. -/
def surplusComma (list : StrictList) : Written Unit :=
  ⟨[.comma], fun _ => (), fun start => [⟨start, list⟩]⟩

theorem before_eq (inner : Written α) (back : List Token) :
    inner.before back = (inner.seq (fixed back)).map Prod.fst := by
  simp [before, seq, fixed, map, mapAt]

/-- The second stretch is the first one without its surplus commas.  These stand in
ascending order, each at the end of its list, where `after` are the tokens that follow;
the trees are the same once `bare` has taken the places out. -/
structure Tidies (written tidy : Written α) (after : List Token) (bare : α → γ) : Prop where
  ascending : ∀ start, ((written.surplus start).map SurplusComma.index).Pairwise (· < ·)
  inside : ∀ start, ∀ comma ∈ written.surplus start,
    start ≤ comma.index ∧ comma.index < start + written.tokens.length
  trails : ∀ start, ∀ comma ∈ written.surplus start, comma.Trails start (written.tokens ++ after)
  clean : ∀ start, tidy.surplus start = []
  tokens : ∀ start, tidy.tokens =
    leaveOut ((written.surplus start).map SurplusComma.index) start written.tokens
  same : ∀ start other, bare (written.tree start) = bare (tidy.tree other)

namespace Tidies

variable {written tidy : Written α} {after : List Token} {bare : α → γ}

theorem fixed (tokens after : List Token) :
    (Written.fixed tokens).Tidies (Written.fixed tokens) after id where
  ascending _ := .nil
  inside _ _ member := nomatch member
  trails _ _ member := nomatch member
  clean _ := rfl
  tokens start := (leaveOut_nil start tokens).symm
  same _ _ := rfl

theorem leaf (lexeme : Token) {tree : Nat → α}
    (same : ∀ start other, bare (tree start) = bare (tree other)) :
    (Written.leaf lexeme tree).Tidies (Written.leaf lexeme tree) after bare where
  ascending _ := .nil
  inside _ _ member := nomatch member
  trails _ _ member := nomatch member
  clean _ := rfl
  tokens start := (leaveOut_nil start [lexeme]).symm
  same := same

theorem surplusComma (list : StrictList) :
    (Written.surplusComma list).Tidies (Written.fixed []) [list.closing] id where
  ascending start := List.pairwise_singleton _ start
  inside start comma member := by
    obtain rfl := List.mem_singleton.mp member
    exact ⟨Nat.le_refl start, Nat.lt_succ_self start⟩
  trails start comma member := by
    obtain rfl := List.mem_singleton.mp member
    exact ⟨[], [], rfl, rfl⟩
  clean _ := rfl
  tokens start := by simp [Written.surplusComma, Written.fixed, leaveOut]
  same _ _ := rfl

theorem extend (tidies : written.Tidies tidy [] bare) (after : List Token) :
    written.Tidies tidy after bare where
  ascending := tidies.ascending
  inside := tidies.inside
  trails start comma member := by
    have trails := (tidies.trails start comma member).before after
    rwa [List.append_nil] at trails
  clean := tidies.clean
  tokens := tidies.tokens
  same := tidies.same

theorem mapAt {f : Nat → α → β} {g : β → δ} (tidies : written.Tidies tidy after bare)
    (image : ∀ start stop first second, bare first = bare second →
      g (f start first) = g (f stop second)) :
    (written.mapAt f).Tidies (tidy.mapAt f) after g where
  ascending := tidies.ascending
  inside := tidies.inside
  trails := tidies.trails
  clean := tidies.clean
  tokens := tidies.tokens
  same start stop := image start stop _ _ (tidies.same start stop)

theorem map {f : α → β} {g : β → δ} (tidies : written.Tidies tidy after bare)
    (image : ∀ first second, bare first = bare second → g (f first) = g (f second)) :
    (written.map f).Tidies (tidy.map f) after g :=
  tidies.mapAt fun _ _ => image

/-- What the first stretch wants to be followed by is what the second one begins with. -/
theorem seq {early : List Token} {second tidySecond : Written β} {other : β → δ}
    (tidies : written.Tidies tidy early bare) (rest : second.Tidies tidySecond after other)
    (follows : early <+: second.tokens ++ after) :
    (written.seq second).Tidies (tidy.seq tidySecond) after
      (fun pair => (bare pair.1, other pair.2)) where
  ascending start := by
    have apart : ∀ index ∈ (written.surplus start).map SurplusComma.index,
        ∀ later ∈ (second.surplus (start + written.tokens.length)).map SurplusComma.index,
          index < later := by
      simp only [List.forall_mem_map]
      intro comma member later behind
      exact Nat.lt_of_lt_of_le (tidies.inside start comma member).2
        (rest.inside _ later behind).1
    rw [Written.seq, List.map_append]
    exact List.pairwise_append.mpr ⟨tidies.ascending _, rest.ascending _, apart⟩
  inside start comma member := by
    rw [tokens_seq, List.length_append]
    rcases List.mem_append.mp member with front | back
    · have bounds := tidies.inside start comma front
      omega
    · have bounds := rest.inside _ comma back
      omega
  trails start comma member := by
    rw [tokens_seq, List.append_assoc]
    rcases List.mem_append.mp member with front | back
    · obtain ⟨more, whole⟩ := follows
      rw [← whole, ← List.append_assoc]
      exact (tidies.trails start comma front).before more
    · exact (rest.trails _ comma back).behind written.tokens
  clean start := List.append_eq_nil_iff.mpr ⟨tidies.clean _, rest.clean _⟩
  tokens start := by
    rw [tokens_seq, tokens_seq, Written.seq, List.map_append, leaveOut_split,
      ← tidies.tokens start, ← rest.tokens (start + written.tokens.length)]
    · simp only [List.forall_mem_map]
      exact fun comma member => (tidies.inside start comma member).2
    · simp only [List.forall_mem_map]
      exact fun comma member => (rest.inside _ comma member).1
  same start stop := Prod.ext (tidies.same _ _) (rest.same _ _)

theorem behind (front : List Token) (tidies : written.Tidies tidy after bare) :
    (written.behind front).Tidies (tidy.behind front) after bare := by
  have both := (Tidies.fixed front []).seq tidies List.nil_prefix
  exact both.map (f := Prod.snd) fun first second same => congrArg Prod.snd same

theorem before {early : List Token} (back : List Token) (tidies : written.Tidies tidy early bare)
    (follows : early <+: back ++ after) :
    (written.before back).Tidies (tidy.before back) after bare := by
  have both := tidies.seq (Tidies.fixed back after) follows
  rw [before_eq, before_eq]
  exact both.map (f := Prod.fst) fun first second same => congrArg Prod.fst same

theorem between (opening closing : Token) (tidies : written.Tidies tidy [closing] bare) :
    (written.between opening closing).Tidies (tidy.between opening closing) after bare :=
  (tidies.before [closing] (List.prefix_append _ _)).behind [opening]

theorem optional {σ : Type} (write : σ → Written α) (f : σ → σ) (source : Option σ)
    (each : ∀ item ∈ source, (write item).Tidies (write (f item)) after bare) :
    (Written.optional (source.map write)).Tidies (Written.optional ((source.map f).map write))
      after (Option.map bare) := by
  cases source with
  | none =>
    exact (Tidies.fixed [] after).map (f := fun _ => none) fun _ _ _ => rfl
  | some item => exact (each item rfl).map fun first second same => congrArg some same

/-! ## Lists -/

theorem items {sources tidied : List (Written α)}
    (each : List.Forall₂ (fun source tidy => source.Tidies tidy [] bare) sources tidied) :
    (Written.mk (itemTokens sources) (fun start => itemTrees start sources)
        (fun start => itemSurplus start sources)).Tidies
      (.mk (itemTokens tidied) (fun start => itemTrees start tidied)
        (fun start => itemSurplus start tidied)) [] (List.map bare) := by
  induction each with
  | nil => exact (Tidies.fixed [] []).map (f := fun _ => []) fun _ _ _ => rfl
  | @cons first tidyFirst others tidyOthers head tail ih =>
    cases tail with
    | nil =>
      have alone := head.map (f := fun tree => [tree]) (g := List.map bare)
        fun left right same => congrArg (fun tree => [tree]) same
      simpa [itemTokens, itemTrees, itemSurplus, Written.map, Written.mapAt] using alone
    | @cons second tidySecond later tidyLater _ _ =>
      have row := (head.seq (ih.behind [.comma]) List.nil_prefix).map
        (f := fun pair : α × List α => pair.1 :: pair.2) (g := List.map bare)
        fun left right same => congrArg (fun pair : γ × List γ => pair.1 :: pair.2) same
      rw [itemTokens_cons_cons, itemTokens_cons_cons]
      exact row

end Tidies

end Written

/-- Whether the comma is kept that stands behind the last item. -/
def TrailingComma.keep (comma : Bool) : TrailingComma → Bool
  | .allowed => comma
  | .rejected _ => false

namespace Written

variable {α γ : Type} {bare : α → γ}

theorem list_allowed (items : List (Written α)) (comma : Bool) :
    list .allowed items comma =
      (Written.mk (itemTokens items) (fun start => itemTrees start items)
        (fun start => itemSurplus start items)).before (trailingComma items comma) := by
  simp [list, before, trailingSurplus]

theorem list_without (trailing : TrailingComma) (items : List (Written α)) :
    list trailing items false =
      Written.mk (itemTokens items) (fun start => itemTrees start items)
        (fun start => itemSurplus start items) := by
  simp [list, trailingComma]

theorem list_surplus (strict : StrictList) (items : List (Written α)) (some : items ≠ []) :
    list (.rejected strict) items true =
      ((Written.mk (itemTokens items) (fun start => itemTrees start items)
        (fun start => itemSurplus start items)).seq (surplusComma strict)).map Prod.fst := by
  have nonempty : items.isEmpty = false := by simpa using some
  simp [list, trailingComma, trailingSurplus, nonempty, seq, surplusComma, map, mapAt]

theorem Tidies.list (trailing : TrailingComma) (comma : Bool) (closing : Token)
    (closes : ∀ strict, trailing = .rejected strict → strict.closing = closing)
    {sources tidied : List (Written α)}
    (each : List.Forall₂ (fun source tidy => source.Tidies tidy [] bare) sources tidied) :
    (Written.list trailing sources comma).Tidies
      (Written.list trailing tidied (trailing.keep comma)) [closing] (List.map bare) := by
  have row := Tidies.items each
  cases trailing with
  | allowed =>
    have marks : trailingComma tidied comma = trailingComma sources comma := by
      have length := each.length_eq
      cases sources <;> cases tidied <;> simp_all [trailingComma]
    rw [TrailingComma.keep, list_allowed, list_allowed, marks]
    exact row.before _ List.nil_prefix
  | rejected strict =>
    obtain rfl := closes strict rfl
    rw [TrailingComma.keep, list_without]
    cases comma with
    | false =>
      rw [list_without]
      exact row.extend _
    | true =>
      by_cases some : sources = []
      · subst some
        exact row.extend _
      · rw [list_surplus strict sources some]
        have both := row.seq (Tidies.surplusComma strict) List.nil_prefix
        have dropped := both.map (f := Prod.fst) (g := List.map bare)
          fun left right same => congrArg Prod.fst same
        simpa [Written.seq, Written.fixed, Written.map, Written.mapAt] using dropped

theorem Tidies.many {sources tidied : List (Written α)}
    (each : List.Forall₂ (fun source tidy => source.Tidies tidy [] bare) sources tidied) :
    (Written.many sources).Tidies (Written.many tidied) [] (List.map bare) := by
  induction each with
  | nil => exact (Tidies.fixed [] []).map (f := fun _ => []) fun _ _ _ => rfl
  | cons head tail ih =>
    exact (head.seq ih List.nil_prefix).map
      (f := fun pair : α × List α => pair.1 :: pair.2)
      fun left right same => congrArg (fun pair : γ × List γ => pair.1 :: pair.2) same

end Written

/-- The list with tidy items and without a surplus comma. -/
def ListForm.tidy {σ : Type} (trailing : TrailingComma) (tidyItem : σ → σ) (form : ListForm σ) :
    ListForm σ :=
  ⟨form.items.map tidyItem, trailing.keep form.comma⟩

theorem ListForm.tidies {σ α γ : Type} (trailing : TrailingComma) (closing : Token)
    (write : σ → Written α) (tidyItem : σ → σ) (form : ListForm σ) (bare : α → γ)
    (closes : ∀ strict, trailing = .rejected strict → strict.closing = closing)
    (each : ∀ item ∈ form.items, (write item).Tidies (write (tidyItem item)) [] bare) :
    (form.written trailing write).Tidies ((form.tidy trailing tidyItem).written trailing write)
      [closing] (List.map bare) := by
  refine Written.Tidies.list trailing form.comma closing closes ?_
  have items : (form.tidy trailing tidyItem).items = form.items.map tidyItem := rfl
  rw [items, List.map_map, List.forall₂_map_left_iff, List.forall₂_map_right_iff,
    List.forall₂_same]
  exact each

end BuildLang
