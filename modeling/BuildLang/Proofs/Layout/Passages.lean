import BuildLang.Proofs.Layout.Bare
import BuildLang.Proofs.Layout.Files
import BuildLang.Text.Blank

/-!
# Clean lines

No line of a file has white space at either end, nor a line break inside.  Empty
lines stand only between two sections, and every section ends at the margin.
-/

set_option autoImplicit false

namespace BuildLang

/-! ## Texts -/

/-- A text that may stand in front of another one: it breaks no line and does not begin with
white space. -/
structure Opener (text : String) : Prop where
  front : text.toList.head?.any Blank.isBlank = false
  unbroken : '\n' ∉ text.toList

/-- A text that may stand behind another one. -/
structure Closer (text : String) : Prop where
  back : text.toList.getLast?.any Blank.isBlank = false
  unbroken : '\n' ∉ text.toList

/-- A text in one line with no white space at either end. -/
structure Trim (text : String) : Prop where
  filled : text.toList ≠ []
  opens : Opener text
  closes : Closer text

namespace Trim

theorem before {text : String} (trim : Trim text) (later : String)
    (unbroken : '\n' ∉ later.toList) : Opener (text ++ later) where
  front := by
    rw [String.toList_append, List.head?_append_of_ne_nil _ trim.filled]
    exact trim.opens.front
  unbroken := by simp [trim.opens.unbroken, unbroken]

theorem behind {text : String} (trim : Trim text) (first : String)
    (unbroken : '\n' ∉ first.toList) : Closer (first ++ text) where
  back := by
    rw [String.toList_append, List.getLast?_append_of_ne_nil _ trim.filled]
    exact trim.closes.back
  unbroken := by simp [trim.opens.unbroken, unbroken]

theorem opened {text : String} (trim : Trim text) (opening : String) (opens : Opener opening) :
    Trim (opening ++ text) where
  filled := by simp [trim.filled]
  opens := by
    refine ⟨?_, by simp [opens.unbroken, trim.opens.unbroken]⟩
    rw [String.toList_append]
    cases written : opening.toList with
    | nil => exact trim.opens.front
    | cons c rest =>
      have front := opens.front
      rwa [written] at front
  closes := trim.behind opening opens.unbroken

theorem closed {text : String} (trim : Trim text) (closing : String) (closes : Closer closing) :
    Trim (text ++ closing) where
  filled := by simp [trim.filled]
  opens := trim.before closing closes.unbroken
  closes := by
    refine ⟨?_, by simp [closes.unbroken, trim.opens.unbroken]⟩
    rw [String.toList_append]
    by_cases empty : closing.toList = []
    · rw [empty, List.append_nil]
      exact trim.closes.back
    · rw [List.getLast?_append_of_ne_nil _ empty]
      exact closes.back

theorem around {opening closing : String} (opens : Trim opening) (closes : Trim closing)
    (middle : String) (unbroken : '\n' ∉ middle.toList) : Trim (opening ++ middle ++ closing) :=
  closes.opened _ (opens.before middle unbroken)

end Trim

/-! ## Images of tokens -/

namespace Pattern

/-- The ASCII characters that leave ink. -/
def isVisible (c : Char) : Bool :=
  '!' ≤ c && c ≤ '~'

theorem visible_not_blank (c : Char) (visible : isVisible c = true) : Blank.isBlank c = false := by
  simp only [isVisible, Bool.and_eq_true, decide_eq_true_eq, Char.le_def,
    UInt32.le_iff_toNat_le] at visible
  have bounds : 33 ≤ c.toNat ∧ c.toNat ≤ 126 := visible
  simp only [Blank.isBlank, CodeRange.covers, Blank.ranges, List.any_cons, List.any_nil,
    Bool.or_false, Bool.or_eq_false_iff, Bool.and_eq_false_iff, decide_eq_false_iff_not]
  omega

theorem wordPart_visible (c : Char) (part : isWordPart c = true) : isVisible c = true := by
  simp only [isWordPart, isWordStart, isDigit, Bool.or_eq_true, Bool.and_eq_true,
    decide_eq_true_eq, Char.le_def, UInt32.le_iff_toNat_le, Char.ext_iff,
    ← UInt32.toNat_inj] at part
  simp only [isVisible, Bool.and_eq_true, decide_eq_true_eq, Char.le_def, UInt32.le_iff_toNat_le]
  simp at part ⊢
  omega

theorem digit_visible (c : Char) (digit : isDigit c = true) : isVisible c = true :=
  wordPart_visible c (by simp [isWordPart, digit])

theorem wordImage_visible (image : List Char) (legal : WordImage image) :
    image.all isVisible = true := by
  obtain ⟨first, rest, rfl, start, others⟩ := legal
  simp only [← isWordStart_iff, ← isWordPart_iff] at start others
  rw [List.all_eq_true]
  intro c member
  rcases List.mem_cons.mp member with rfl | later
  · exact wordPart_visible c (by simp [isWordPart, start])
  · exact wordPart_visible c (others c later)

theorem digits_visible (image : List Char) (legal : Digits image) :
    image.all isVisible = true :=
  List.all_eq_true.mpr fun c member => digit_visible c ((isDigit_iff c).mpr (legal.2 c member))

theorem numberImage_visible (image : List Char) (legal : NumberImage image) :
    image.all isVisible = true := by
  obtain ⟨sign, whole, fraction, exponent, signed, wholeLegal, fractionLegal, exponentLegal,
    rfl⟩ := legal
  have inSign : sign.all isVisible = true := by
    rcases signed with rfl | rfl <;> rfl
  have inWhole : whole.all isVisible = true := by
    cases wholeLegal with
    | zero => rfl
    | digits _ first others =>
      exact digits_visible _ ⟨by simp, List.forall_mem_cons.mpr ⟨first, others⟩⟩
  have inFraction : fraction.all isVisible = true := by
    cases fractionLegal with
    | absent => rfl
    | present some => rw [List.all_cons, digits_visible _ some, Bool.and_true]; rfl
  have inExponent : exponent.all isVisible = true := by
    cases exponentLegal with
    | absent => rfl
    | present marked signed some =>
      rw [List.all_cons, List.all_append, digits_visible _ some, Bool.and_true]
      rcases marked with rfl | rfl <;> rcases signed with rfl | rfl | rfl <;> rfl
  simp [inSign, inWhole, inFraction, inExponent]

theorem StringBody.unbroken {body : List Char} (legal : StringBody body) : '\n' ∉ body := by
  have outside {listed : List Char} {c : Char} (inside : c ∈ listed) (free : '\n' ∉ listed) :
      '\n' ≠ c := by
    rintro rfl
    exact free inside
  induction legal with
  | nil => simp
  | @plain c rest plain _ ih =>
    have other : '\n' ≠ c := by
      rintro rfl
      exact plain (by decide)
    simp [other, ih]
  | escape known _ ih => simp [outside known (by decide), ih]
  | unicode first second third fourth _ ih =>
    have free : '\n' ∉ hexadecimals := by decide
    simp [outside first free, outside second free, outside third free, outside fourth free, ih]

end Pattern

theorem Trim.ofVisible {text : String} (filled : text.toList ≠ [])
    (visible : text.toList.all Pattern.isVisible = true) : Trim text := by
  rw [List.all_eq_true] at visible
  have unbroken : '\n' ∉ text.toList := by
    intro broken
    cases visible _ broken
  refine ⟨filled, ⟨?_, unbroken⟩, ⟨?_, unbroken⟩⟩
  · rw [Option.any_eq_false]
    intro c first
    simp [Pattern.visible_not_blank c (visible c (List.mem_of_mem_head? first))]
  · rw [Option.any_eq_false]
    intro c last
    simp [Pattern.visible_not_blank c (visible c (List.mem_of_mem_getLast? last))]

/-- Whatever a token is written as can stand in one line. -/
theorem Token.trim_text (lexeme : Token) (legal : lexeme.Legal) : Trim lexeme.text := by
  have word {text : String} (image : Pattern.WordImage text.toList) : Trim text := by
    refine .ofVisible ?_ (Pattern.wordImage_visible _ image)
    obtain ⟨c, rest, written, _⟩ := image
    simp [written]
  cases lexeme with
  | string raw =>
    obtain ⟨body, inside, written⟩ := legal
    have unbroken : '\n' ∉ raw.toList := by simp [written, inside.unbroken]
    have noBlank : Blank.isBlank '"' = false := rfl
    refine ⟨by simp [text, written], ⟨?_, unbroken⟩, ⟨?_, unbroken⟩⟩
    · simp [text, written, noBlank]
    · rw [text, written, ← List.cons_append, List.getLast?_concat]
      simp [noBlank]
  | number raw =>
    refine .ofVisible ?_ (Pattern.numberImage_visible _ legal)
    obtain ⟨sign, whole, fraction, exponent, _, wholeLegal, _, _, written⟩ := legal
    obtain ⟨c, rest, rfl, _⟩ := Pattern.wholePart_start whole wholeLegal
    simp [text, written]
  | identifier name => exact word legal.1
  | boolean value => cases value <;> exact .ofVisible (by decide) (by decide)
  | _ => exact .ofVisible (by decide) (by decide)

theorem trim_rightParen : Trim ")" :=
  Token.rightParen.trim_text trivial

theorem closer_comma : Closer "," :=
  (Token.comma.trim_text trivial).closes

theorem closer_empty : Closer "" :=
  ⟨by decide, by decide⟩

/-! ## Passages -/

/-- Lines of text, none of them empty, of which the last one stands at the margin. -/
inductive Passage : List Line → Prop where
  | last {text : String} (trim : Trim text) : Passage [⟨0, text⟩]
  | cons {line : Line} {lines : List Line} (trim : Trim line.text) (rest : Passage lines) :
      Passage (line :: lines)

namespace Passage

theorem ne_nil {lines : List Line} (passage : Passage lines) : lines ≠ [] := by
  cases passage <;> simp

theorem trim {lines : List Line} (passage : Passage lines) : ∀ line ∈ lines, Trim line.text := by
  induction passage with
  | last trim => simpa using trim
  | cons trim _ ih => exact List.forall_mem_cons.mpr ⟨trim, ih⟩

theorem append {lines others : List Line} (trim : ∀ line ∈ lines, Trim line.text)
    (rest : Passage others) : Passage (lines ++ others) := by
  induction lines with
  | nil => exact rest
  | cons line lines ih =>
    obtain ⟨first, later⟩ := List.forall_mem_cons.mp trim
    exact .cons first (ih later)

theorem behind {lines : List Line} (passage : Passage lines) (opening : String)
    (opens : Opener opening) : Passage (Line.beside (Line.single opening) lines) := by
  cases passage with
  | last trim => exact .last (trim.opened opening opens)
  | cons trim rest => exact .cons (trim.opened opening opens) rest

theorem before {lines : List Line} (passage : Passage lines) (closing : String)
    (closes : Closer closing) : Passage (Line.beside lines (Line.single closing)) := by
  induction passage with
  | last trim => exact .last (trim.closed closing closes)
  | @cons line lines trim rest ih =>
    -- A passage goes on below, so the closing text is none of this line's business.
    cases rest with
    | last next => exact .cons trim ih
    | cons next later => exact .cons trim ih

theorem enclosed {lines : List Line} (passage : Passage lines) (opening closing : String)
    (opens : Opener opening) (closes : Closer closing) :
    Passage (Line.besideAll [Line.single opening, lines, Line.single closing]) :=
  (passage.before closing closes).behind opening opens

theorem block (opening closing : String) (opens : Trim opening) (closes : Trim closing)
    (lines : List Line) (inside : ∀ line ∈ lines, Trim line.text) :
    Passage (Line.block opening lines closing) := by
  cases lines with
  | nil => exact .last (closes.opened opening opens.opens)
  | cons line lines =>
    have deeper : ∀ other ∈ Line.nested (line :: lines), Trim other.text := by
      rw [Line.nested, List.forall_mem_map]
      exact inside
    exact .cons opens (append deeper (.last closes))

/-- A name and, in parentheses, its arguments. -/
theorem call (name : String) (legal : (Token.identifier name).Legal) (lines : List Line)
    (inside : ∀ line ∈ lines, Trim line.text) : Passage (Line.block (name ++ "(") lines ")") := by
  have called : Trim name := (Token.identifier name).trim_text legal
  have opening : Closer "(" := (Token.leftParen.trim_text trivial).closes
  exact block _ _ (called.closed "(" opening) trim_rightParen lines inside

end Passage

variable {π : Type}

/-! ## Values -/

theorem unbroken_items (texts : List String) (each : ∀ text ∈ texts, Trim text) :
    '\n' ∉ (", ".intercalate texts).toList := by
  intro broken
  rcases mem_intercalate _ _ _ broken with parting | ⟨text, member, inside⟩
  · exact absurd parting (by decide)
  · exact (each text member).opens.unbroken inside

theorem trim_bracketed (texts : List String) (each : ∀ text ∈ texts, Trim text) :
    Trim (bracketed texts) := by
  have opens : Trim "[" := Token.leftBracket.trim_text trivial
  have closes : Trim "]" := Token.rightBracket.trim_text trivial
  exact opens.around closes _ (unbroken_items texts each)

theorem Phrase.trim_raw (phrase : Phrase π) (legal : phrase.WellFormed) : Trim phrase.raw := by
  cases phrase with
  | string literal => exact (Token.string literal.raw).trim_text legal
  | identifier node => exact (Token.identifier node.name).trim_text legal

theorem Element.trim_raw (element : Element π) (legal : element.WellFormed) :
    Trim element.raw := by
  cases element with
  | string literal => exact (Token.string literal.raw).trim_text legal
  | number literal => exact (Token.number literal.raw).trim_text legal
  | boolean literal => exact (Token.boolean literal.value).trim_text trivial
  | identifier node => exact (Token.identifier node.name).trim_text legal

theorem ArrayLiteral.trim_text (array : ArrayLiteral π) (legal : array.WellFormed) :
    Trim array.text := by
  refine trim_bracketed _ ?_
  rw [List.forall_mem_map]
  exact fun element member => element.trim_raw (legal element member)

theorem ArrayOrName.trim_text (node : ArrayOrName π) (legal : node.WellFormed) :
    Trim node.text := by
  cases node with
  | array node => exact node.trim_text legal
  | identifier node => exact (Token.identifier node.name).trim_text legal

theorem Glob.trim_argument (glob : Glob π) (legal : glob.WellFormed) :
    ∀ argument ∈ glob.arguments, Trim (GlobArgument.text argument) := by
  have listed (patterns : List (Phrase π))
      (inside : ∀ pattern ∈ patterns, Phrase.WellFormed pattern) :
      Trim (bracketed (patterns.map Phrase.raw)) := by
    refine trim_bracketed _ ?_
    rw [List.forall_mem_map]
    exact fun pattern member => pattern.trim_raw (inside pattern member)
  intro argument member
  simp only [arguments, List.mem_append, Option.mem_toList, Option.map_eq_some_iff] at member
  rcases member with ⟨patterns, given, rfl⟩ | ⟨patterns, given, rfl⟩
  · exact listed patterns (legal.includes patterns given)
  · refine (listed patterns (legal.excludes patterns given)).opened "exclude = " ?_
    exact ⟨by decide, by decide⟩

theorem Glob.trim_text (glob : Glob π) (legal : glob.WellFormed) : Trim glob.text := by
  have opens : Trim "glob(" := .ofVisible (by decide) (by decide)
  rw [text_arguments]
  refine opens.around trim_rightParen _ (unbroken_items _ ?_)
  rw [List.forall_mem_map]
  exact glob.trim_argument legal

theorem Entry.passage (entry : Entry π (Value π)) (legal : entry.WellFormed)
    (value : Passage entry.value.layout) : Passage entry.layout := by
  have key : Trim entry.key.raw := (Token.string entry.key.raw).trim_text legal.key
  exact value.enclosed _ "," (key.before ": " (by decide)) closer_comma

theorem Value.passage_entries (entries : List (Entry π (Value π)))
    (legal : ∀ entry ∈ entries, entry.WellFormed)
    (each : ∀ entry ∈ entries, Passage (Entry.value entry).layout) :
    Passage (Line.block "\x7b" (Value.layoutEntries entries) "\x7d") := by
  refine .block _ _ (Token.leftBrace.trim_text trivial) (Token.rightBrace.trim_text trivial) _ ?_
  rw [layoutEntries_eq, List.forall_mem_flatMap]
  intro entry member
  exact (entry.passage (legal entry member) (each entry member)).trim

theorem Select.passage_enclose (constraint : List Line) (message : Option (Phrase π))
    (passage : Passage constraint) (legal : ∀ phrase ∈ message, Phrase.WellFormed phrase) :
    Passage (Select.enclose constraint message) := by
  have unbroken : '\n' ∉ (messageText message).toList := by
    cases message with
    | none =>
      rw [messageText_none]
      decide
    | some phrase =>
      have raw := (phrase.trim_raw (legal phrase rfl)).opens.unbroken
      simp [messageText_some, raw]
  refine passage.enclosed _ _ ⟨by decide, by decide⟩ ?_
  exact trim_rightParen.behind _ unbroken

theorem Value.passage (value : Value π) (legal : value.WellFormed) : Passage value.layout := by
  induction value using Value.nestedInduction with
  | string literal => exact .last ((Token.string literal.raw).trim_text legal)
  | number literal => exact .last ((Token.number literal.raw).trim_text legal)
  | boolean literal => exact .last ((Token.boolean literal.value).trim_text trivial)
  | identifier node => exact .last ((Token.identifier node.name).trim_text legal)
  | array node => exact .last (node.trim_text legal)
  | glob node => exact .last (node.trim_text legal)
  | dict entries position each =>
    rw [WellFormed, entriesWellFormed_iff] at legal
    exact passage_entries entries legal
      fun entry member => each entry member (legal entry member).value
  | selectDict entries inner message position each =>
    rw [WellFormed, entriesWellFormed_iff] at legal
    have constraint := passage_entries entries legal.1
      fun entry member => each entry member (legal.1 entry member).value
    exact Select.passage_enclose _ message constraint legal.2
  | selectName node message position =>
    rw [WellFormed] at legal
    exact Select.passage_enclose _ message
      (.last ((Token.identifier node.name).trim_text legal.1)) legal.2

/-! ## Statements -/

theorem passage_layoutBinding (name : String) (value : Value π) (ending : String)
    (legalName : (Token.identifier name).Legal) (legal : value.WellFormed)
    (closes : Closer ending) : Passage (layoutBinding name value ending) := by
  have bound : Trim name := (Token.identifier name).trim_text legalName
  exact (value.passage legal).enclosed _ ending (bound.before " = " (by decide)) closes

theorem Rule.trim_layoutAttributes (attributes : List (Attribute π))
    (legal : ∀ argument ∈ attributes, argument.WellFormed) :
    ∀ line ∈ Rule.layoutAttributes attributes, Trim line.text := by
  induction attributes with
  | nil => simp [layoutAttributes]
  | cons argument others ih =>
    obtain ⟨first, later⟩ := List.forall_mem_cons.mp legal
    cases others with
    | nil =>
      exact (passage_layoutBinding argument.name argument.value "" first.name first.value
        closer_empty).trim
    | cons next rest =>
      have bound := passage_layoutBinding argument.name argument.value "," first.name first.value
        closer_comma
      exact List.forall_mem_append.mpr ⟨bound.trim, ih later⟩

theorem Rule.passage (rule : Rule π) (legal : rule.WellFormed) : Passage rule.layout :=
  .call rule.kind legal.kind _ (trim_layoutAttributes rule.attributes legal.attributes)

theorem passage_layoutCall (name : String) (arguments : List (Argument π))
    (legalName : (Token.identifier name).Legal)
    (legal : ∀ argument ∈ arguments, argument.WellFormed) :
    Passage (layoutCall name arguments) := by
  refine .call name legalName _ ?_
  rw [List.forall_mem_flatMap]
  intro argument member
  exact (passage_layoutBinding argument.name argument.value "," (legal argument member).name
    (legal argument member).value closer_comma).trim

theorem ExportsFiles.passage (exports : ExportsFiles π) (legal : exports.WellFormed) :
    Passage exports.layout := by
  have opens : Trim "exports_files(" := .ofVisible (by decide) (by decide)
  have files := (exports.files.trim_text legal.files).opened _ opens.opens
  cases given : exports.visibility with
  | none =>
    rw [layout, given]
    exact .last ((files.closed "" closer_empty).closed ")" trim_rightParen.closes)
  | some value =>
    have visibility := value.trim_text (legal.visibility value given)
    have listed := visibility.behind ", visibility = " (by decide)
    rw [layout, given]
    exact .last ((files.closed _ listed).closed ")" trim_rightParen.closes)

theorem LoadedSymbol.trim_text (symbol : LoadedSymbol π) (legal : symbol.WellFormed) :
    Trim symbol.text := by
  cases symbol with
  | plain symbol position => exact (Token.string (quoted symbol)).trim_text (quoted_legal _ legal)
  | renamed name symbol position =>
    have bound : Trim name := (Token.identifier name).trim_text legal.1
    have loaded : Trim (quoted symbol) :=
      (Token.string (quoted symbol)).trim_text (quoted_legal _ legal.2)
    exact bound.around loaded " = " (by decide)

theorem Load.trim_text (load : Load π) (legal : load.WellFormed) : Trim load.text := by
  have opens : Trim "load(" := .ofVisible (by decide) (by decide)
  have label : Trim (quoted load.source) :=
    (Token.string (quoted load.source)).trim_text (quoted_legal _ legal.source)
  have symbols : ∀ text ∈ load.sortedSymbols.map LoadedSymbol.text, Trim text := by
    rw [List.forall_mem_map]
    exact fun symbol member =>
      symbol.trim_text (legal.symbols symbol (List.mem_mergeSort.mp member))
  have unbroken : '\n' ∉ (", " ++ ", ".intercalate
      (load.sortedSymbols.map LoadedSymbol.text)).toList := by
    rw [String.toList_append, List.mem_append, not_or]
    exact ⟨by decide, unbroken_items _ symbols⟩
  have whole := (label.opened _ opens.opens).around trim_rightParen _ unbroken
  rwa [← String.append_assoc] at whole

/-! ## Files -/

/-- No line has white space at its ends; empty lines stand neither first nor last nor two
together, and the last line stands at the margin. -/
structure Clean (lines : List Line) : Prop where
  trim : ∀ line ∈ lines, line.text ≠ "" → Trim line.text
  first : ∀ line ∈ lines.head?, line.text ≠ ""
  last : ∀ line ∈ lines.getLast?, line.text ≠ "" ∧ line.depth = 0
  apart : lines.IsChain fun first second => first.text ≠ "" ∨ second.text ≠ ""

theorem Trim.ne_empty {text : String} (trim : Trim text) : text ≠ "" := by
  rintro rfl
  exact trim.filled rfl

namespace Clean

theorem nil : Clean [] := by
  refine ⟨?_, ?_, ?_, .nil⟩
  all_goals simp

/-- A line in front of clean lines. -/
theorem cons {line : Line} {lines : List Line} (trim : Trim line.text) (rest : Clean lines)
    (some : lines ≠ []) : Clean (line :: lines) where
  trim := List.forall_mem_cons.mpr ⟨fun _ => trim, rest.trim⟩
  first := by simpa using trim.ne_empty
  last := by
    obtain ⟨next, later, rfl⟩ := List.exists_cons_of_ne_nil some
    rw [List.getLast?_cons_cons]
    exact rest.last
  apart := by
    obtain ⟨next, later, rfl⟩ := List.exists_cons_of_ne_nil some
    exact .cons_cons (.inl trim.ne_empty) rest.apart

theorem passage {lines : List Line} (passage : Passage lines) : Clean lines := by
  induction passage with
  | last trim =>
    refine ⟨?_, ?_, ?_, .singleton _⟩
    · simpa using fun _ => trim
    · simpa using trim.ne_empty
    · simpa using trim.ne_empty
  | cons trim rest ih => exact ih.cons trim rest.ne_nil

/-- A passage, an empty line and clean lines. -/
theorem parted {lines others : List Line} (passage : Passage lines) (rest : Clean others)
    (some : others ≠ []) : Clean (lines ++ [⟨0, ""⟩] ++ others) := by
  obtain ⟨next, later, rfl⟩ := List.exists_cons_of_ne_nil some
  induction passage with
  | last trim =>
    refine ⟨?_, ?_, ?_, ?_⟩
    · intro line member filled
      simp only [List.cons_append, List.nil_append, List.mem_cons] at member
      rcases member with rfl | rfl | later
      · exact trim
      · exact absurd rfl filled
      · exact rest.trim line (by simpa using later) filled
    · simpa using trim.ne_empty
    · simpa [List.getLast?_cons_cons] using rest.last
    · have start : next.text ≠ "" := by simpa using rest.first
      exact .cons_cons (.inl trim.ne_empty) (.cons_cons (.inr start) rest.apart)
  | cons trim _ ih => exact ih.cons trim (by simp)

/-- Sections that are passages make a clean text, however many of them are missing. -/
theorem sections (parts : List (List Line)) (each : ∀ part ∈ parts, part = [] ∨ Passage part) :
    Clean (Line.sections parts) := by
  induction parts with
  | nil => exact .nil
  | cons part others ih =>
    obtain ⟨first, later⟩ := List.forall_mem_cons.mp each
    have rest := ih later
    rw [Line.sections_cons]
    split
    · exact rest
    · rename_i filled
      have whole := first.resolve_left filled
      split
      · exact passage whole
      · rename_i some
        exact parted whole rest some

end Clean

theorem Passage.flatMap {σ : Type} (items : List σ) (lines : σ → List Line)
    (each : ∀ item ∈ items, Passage (lines item)) :
    items.flatMap lines = [] ∨ Passage (items.flatMap lines) := by
  induction items with
  | nil => exact .inl rfl
  | cons item others ih =>
    obtain ⟨first, later⟩ := List.forall_mem_cons.mp each
    rw [List.flatMap_cons]
    rcases ih later with none | rest
    · rw [none, List.append_nil]
      exact .inr first
    · exact .inr (append first.trim rest)

namespace BuildFile

theorem passage_sections (file : BuildFile π) (legal : file.WellFormed) :
    ∀ part ∈ file.layoutSections, part = [] ∨ Passage part := by
  intro part member
  simp only [layoutSections, List.mem_append, List.mem_map, Option.mem_toList,
    Option.map_eq_some_iff, List.mem_cons, List.not_mem_nil, or_false] at member
  rcases member with ((((rfl | rfl) | ⟨exports, given, rfl⟩) | ⟨rule, member, rfl⟩) |
    ⟨package, given, rfl⟩) | ⟨group, given, rfl⟩
  · refine Passage.flatMap _ _ ?_
    intro load member
    exact .last (load.trim_text (legal.loads load (List.mem_mergeSort.mp member)))
  · refine Passage.flatMap _ _ ?_
    intro declaration member
    have declared := legal.declarations declaration member
    exact passage_layoutBinding _ _ "" declared.name declared.value closer_empty
  · exact .inr (exports.passage (legal.exportsFiles exports given))
  · exact .inr (rule.passage (legal.rules rule member))
  · exact .inr (passage_layoutCall "package" _ (by decide)
      (package.entries_wellFormed (legal.package package given)))
  · exact .inr (passage_layoutCall "package_group" _ (by decide)
      (group.entries_wellFormed (legal.packageGroup group given)))

theorem clean_layout (file : BuildFile π) (legal : file.WellFormed) : Clean file.layout :=
  .sections _ (file.passage_sections legal)

theorem eq_empty (file : BuildFile π) (empty : file.isEmpty = true) : file = {} := by
  obtain ⟨loads, rules, declarations, package, packageGroup, exportsFiles⟩ := file
  simp only [isEmpty, Bool.and_eq_true, List.isEmpty_iff, Option.isNone_iff_eq_none] at empty
  simp [empty]

theorem layoutLoads_empty : ({} : BuildFile π).layoutLoads = [] := by
  simp [layoutLoads, sortedLoads]

theorem layout_empty : ({} : BuildFile π).layout = [] := by
  simp [layout, layoutSections, layoutLoads_empty, Line.sections]

/-- The text of a file that holds nothing is empty. -/
theorem print_empty (options : PrintOptions) : ({} : BuildFile π).print options = "" := by
  obtain ⟨scope, indent⟩ := options
  cases scope with
  | all =>
    rw [print_eq, layout_empty]
    rfl
  | loads =>
    rw [print, printLoads_eq, layoutLoads_empty]
    rfl

end BuildFile

end BuildLang
