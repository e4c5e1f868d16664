import BuildLang.Proofs.Layout.Shape
import BuildLang.Proofs.Token.Spelling

/-!
# Lines that spell tokens

Lines spell the tokens that their texts spell one after the other; neither the
indentation nor the line breaks add to that.
-/

set_option autoImplicit false

namespace BuildLang

/-! ## Texts -/

theorem spells_token (lexeme : Token) (legal : lexeme.Legal) :
    Spells lexeme.text.toList [lexeme] := by
  have spelled := Spells.token legal (fun _ => Pattern.clear_nil _) .nil
  rwa [List.append_nil] at spelled

/-- A mark or a string knows its own end. -/
theorem leads_token (lexeme : Token) (legal : lexeme.Legal) (closed : lexeme.isOpen = false) :
    Leads lexeme.text.toList [lexeme] := by
  intro later others spelled
  refine .token legal ?_ spelled
  intro isOpen
  rw [closed] at isOpen
  cases isOpen

/-- A text with a blank behind it leads on. -/
theorem Spells.leads_blank {text : List Char} {tokens : List Token} (spelled : Spells text tokens)
    (c : Char) (blank : Pattern.isBlank c = true) (apart : Pattern.isJoining c = false) :
    Leads (text ++ [c]) tokens := by
  intro later others rest
  rw [List.append_assoc, List.singleton_append]
  exact spelled.append ((Pattern.clear_cons _ _ _).mpr apart) (.blank blank rest)

/-- A text with a mark behind it leads on. -/
theorem Spells.leads_mark {text : List Char} {tokens : List Token} (spelled : Spells text tokens)
    (mark : Char) (lexeme : Token) (written : lexeme.text.toList = [mark])
    (legal : lexeme.Legal) (closed : lexeme.isOpen = false)
    (apart : Pattern.isJoining mark = false) : Leads (text ++ [mark]) (tokens ++ [lexeme]) := by
  intro later others rest
  have marked := leads_token lexeme legal closed later others rest
  rw [written] at marked
  rw [List.append_assoc, List.append_assoc]
  exact spelled.append ((Pattern.clear_cons _ _ _).mpr apart) marked

theorem spells_blanks (blanks text : List Char) (tokens : List Token)
    (blank : ∀ c ∈ blanks, Pattern.isBlank c = true) (spelled : Spells text tokens) :
    Spells (blanks ++ text) tokens := by
  induction blanks with
  | nil => exact spelled
  | cons c rest ih =>
    exact .blank (blank c (by simp)) (ih (fun d member => blank d (by simp [member])))

theorem mem_intercalate (separator : String) (texts : List String) (c : Char)
    (member : c ∈ (separator.intercalate texts).toList) :
    c ∈ separator.toList ∨ ∃ text ∈ texts, c ∈ text.toList := by
  induction texts with
  | nil => simp at member
  | cons text others ih =>
    cases others with
    | nil => exact .inr ⟨text, by simp, by simpa using member⟩
    | cons next later =>
      rw [String.intercalate_cons_cons, String.toList_append, String.toList_append,
        List.mem_append, List.mem_append] at member
      rcases member with (first | parting) | rest
      · exact .inr ⟨text, by simp, first⟩
      · exact .inl parting
      · rcases ih rest with parting | ⟨other, inside, found⟩
        · exact .inl parting
        · exact .inr ⟨other, List.mem_cons_of_mem _ inside, found⟩

/-! ## Lines -/

inductive SpellsLines : List Line → List Token → Prop where
  | nil : SpellsLines [] []
  | cons {line : Line} {lines : List Line} {front back : List Token}
      (first : Spells line.text.toList front) (rest : SpellsLines lines back) :
      SpellsLines (line :: lines) (front ++ back)

namespace SpellsLines

theorem single (text : String) (tokens : List Token) (spelled : Spells text.toList tokens) :
    SpellsLines (Line.single text) tokens := by
  have lines : SpellsLines [⟨0, text⟩] (tokens ++ []) := .cons spelled .nil
  rwa [List.append_nil] at lines

theorem append {first second : List Line} {front back : List Token}
    (spelled : SpellsLines first front) (rest : SpellsLines second back) :
    SpellsLines (first ++ second) (front ++ back) := by
  induction spelled with
  | nil => exact rest
  | cons line _ ih =>
    rw [List.append_assoc]
    exact .cons line ih

theorem flatMap {σ : Type} (items : List σ) (lines : σ → List Line) (tokens : σ → List Token)
    (each : ∀ item ∈ items, SpellsLines (lines item) (tokens item)) :
    SpellsLines (items.flatMap lines) (items.flatMap tokens) := by
  induction items with
  | nil => exact .nil
  | cons item others ih =>
    rw [List.flatMap_cons, List.flatMap_cons]
    exact (each item (by simp)).append (ih (fun later member => each later (by simp [member])))

theorem nested {lines : List Line} {tokens : List Token} (spelled : SpellsLines lines tokens) :
    SpellsLines (Line.nested lines) tokens := by
  induction spelled with
  | nil => exact .nil
  | cons line _ ih => exact .cons line ih

theorem behind {lines : List Line} {tokens : List Token} (opening : String) (front : List Token)
    (leads : Leads opening.toList front) (spelled : SpellsLines lines tokens) :
    SpellsLines (Line.beside (Line.single opening) lines) (front ++ tokens) := by
  cases spelled with
  | nil =>
    rw [List.append_nil]
    exact single opening front leads.spells
  | @cons line lines first back spelledLine rest =>
    rw [← List.append_assoc]
    refine .cons ?_ rest
    rw [String.toList_append]
    exact leads _ _ spelledLine

theorem before {lines : List Line} {tokens : List Token} (closing : String) (back : List Token)
    (spelled : SpellsLines lines tokens) (clear : Pattern.Clear Pattern.isJoining closing.toList)
    (closed : Spells closing.toList back) :
    SpellsLines (Line.beside lines (Line.single closing)) (tokens ++ back) := by
  induction spelled with
  | nil => exact single closing back closed
  | @cons line lines front others spelledLine rest ih =>
    -- The closing text goes on with the last line, so all others stay.
    cases rest with
    | nil =>
      have whole : Spells (line.text ++ closing).toList (front ++ back) := by
        rw [String.toList_append]
        exact spelledLine.append clear closed
      have lines : SpellsLines [⟨line.depth, line.text ++ closing⟩] (front ++ back ++ []) :=
        .cons whole .nil
      rw [List.append_nil] at lines ⊢
      exact lines
    | cons spelledNext later =>
      rw [List.append_assoc]
      exact .cons spelledLine ih

/-- Lines between an opening and a closing text. -/
theorem enclosed {lines : List Line} {tokens : List Token} (opening closing : String)
    (front back : List Token) (leads : Leads opening.toList front)
    (spelled : SpellsLines lines tokens)
    (clear : Pattern.Clear Pattern.isJoining closing.toList)
    (closed : Spells closing.toList back) :
    SpellsLines (Line.besideAll [Line.single opening, lines, Line.single closing])
      (front ++ (tokens ++ back)) :=
  behind opening front leads (before closing back spelled clear closed)

theorem block {lines : List Line} {tokens : List Token} (opening closing : String)
    (front back : List Token) (leads : Leads opening.toList front)
    (spelled : SpellsLines lines tokens) (closed : Spells closing.toList back) :
    SpellsLines (Line.block opening lines closing) (front ++ (tokens ++ back)) := by
  cases spelled with
  | nil =>
    refine single _ _ ?_
    rw [String.toList_append]
    exact leads _ _ closed
  | @cons line lines first others spelledLine rest =>
    have inner := (SpellsLines.cons spelledLine rest).nested
    rw [← List.append_assoc]
    exact ((single opening front leads.spells).append inner).append (single closing back closed)

/-! ## Sections -/

theorem intercalate (parts : List (List Line × List Token))
    (each : ∀ part ∈ parts, SpellsLines part.1 part.2) :
    SpellsLines ([⟨0, ""⟩].intercalate (parts.map Prod.fst)) (parts.flatMap Prod.snd) := by
  induction parts with
  | nil => exact .nil
  | cons part others ih =>
    have first := each part (by simp)
    have rest := ih (fun later member => each later (by simp [member]))
    cases others with
    | nil => simpa using first
    | cons next later =>
      have gap : SpellsLines [⟨0, ""⟩] [] := single "" [] .nil
      have whole := (first.append gap).append rest
      simpa [List.intercalate] using whole

/-- Sections without lines spell nothing, so it does not matter that they vanish. -/
theorem sections (parts : List (List Line × List Token))
    (each : ∀ part ∈ parts, SpellsLines part.1 part.2) :
    SpellsLines (Line.sections (parts.map Prod.fst)) (parts.flatMap Prod.snd) := by
  have kept : ∀ part ∈ parts.filter (fun part => !part.1.isEmpty),
      SpellsLines part.1 part.2 :=
    fun part member => each part (List.mem_filter.mp member).1
  have dropped : (parts.filter fun part => !part.1.isEmpty).flatMap Prod.snd =
      parts.flatMap Prod.snd := by
    clear kept
    induction parts with
    | nil => rfl
    | cons part others ih =>
      have rest := ih (fun later member => each later (by simp [member]))
      obtain ⟨lines, tokens⟩ := part
      have first := each (lines, tokens) (by simp)
      cases first with
      | nil => simpa using rest
      | cons line later => simpa using rest
  rw [Line.sections, List.filter_map, ← dropped]
  exact intercalate _ kept

end SpellsLines

/-- A section stands in front of the others, parted from them by an empty line if there
is something to part. -/
theorem Line.sections_cons (part : List Line) (others : List (List Line)) :
    sections (part :: others) =
      if part = [] then sections others
      else if sections others = [] then part
      else part ++ [⟨0, ""⟩] ++ sections others := by
  cases part with
  | nil => rfl
  | cons line lines =>
    have kept : ((line :: lines) :: others).filter (fun part => !part.isEmpty) =
        (line :: lines) :: others.filter fun part => !part.isEmpty := rfl
    rw [if_neg (List.cons_ne_nil line lines), sections, kept]
    cases found : others.filter fun part => !part.isEmpty with
    | nil => simp [sections, found]
    | cons next later =>
      have filled : next ≠ [] := by
        have inside : next ∈ others.filter fun part => !part.isEmpty := by simp [found]
        simpa using (List.mem_filter.mp inside).2
      have some : [(⟨0, ""⟩ : Line)].intercalate (next :: later) ≠ [] := by
        cases later with
        | nil => simpa using filled
        | cons _ _ => simp [List.intercalate, filled]
      rw [sections, found, if_neg some]
      simp [List.intercalate]

/-! ## Rendering -/

theorem Line.render_eq (line : Line) (indent : String) :
    line.render indent =
      (if line.text = "" then "" else String.join (List.replicate line.depth indent)) ++
        line.text := by
  by_cases empty : line.text = ""
  · simp [render, empty]
  · simp [render, empty]

theorem Line.renderAll_append (indent : String) (first second : List Line) :
    renderAll indent (first ++ second) = renderAll indent first ++ renderAll indent second := by
  rw [renderAll, List.map_append, String.join_append]
  rfl

theorem spells_indentation (depth : Nat) (indent : String) (text : List Char)
    (tokens : List Token) (blank : ∀ c ∈ indent.toList, Pattern.isBlank c = true)
    (spelled : Spells text tokens) :
    Spells ((String.join (List.replicate depth indent)).toList ++ text) tokens := by
  refine spells_blanks _ _ _ ?_ spelled
  intro c member
  rw [String.toList_join, List.mem_flatMap] at member
  obtain ⟨level, inside, member⟩ := member
  obtain rfl := List.eq_of_mem_replicate inside
  exact blank c member

theorem Line.spells_render (line : Line) (indent : String) (tokens : List Token)
    (blank : ∀ c ∈ indent.toList, Pattern.isBlank c = true)
    (spelled : Spells line.text.toList tokens) : Spells (line.render indent).toList tokens := by
  unfold render
  split
  · rename_i empty
    have none : line.text = "" := by simpa using empty
    rwa [none] at spelled
  · rw [String.toList_append]
    exact spells_indentation line.depth indent _ _ blank spelled

/-- Lines spell their tokens under any indentation that is made of blanks. -/
theorem SpellsLines.renderAll {lines : List Line} {tokens : List Token}
    (spelled : SpellsLines lines tokens) (indent : String)
    (blank : ∀ c ∈ indent.toList, Pattern.isBlank c = true) :
    Spells (Line.renderAll indent lines).toList tokens := by
  induction spelled with
  | nil => exact .nil
  | @cons line lines front back first rest ih =>
    have rendered := line.spells_render indent front blank first
    have ended := rendered.leads_blank '\n' rfl rfl
    have whole := ended _ _ ih
    simpa [Line.renderAll] using whole

end BuildLang
