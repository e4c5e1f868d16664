import BuildLang.Proofs.Layout.Lines
import BuildLang.Proofs.Tree.Canonical
import BuildLang.Proofs.Tree.WellFormed

/-!
# Texts of values

A well-formed value is laid out in lines that spell the tokens of its canonical
derivation.
-/

set_option autoImplicit false

namespace BuildLang

open Written

/-! ## Names and marks -/

theorem leads_space {text : List Char} {tokens : List Token} (spelled : Spells text tokens) :
    Leads (text ++ [' ']) tokens :=
  spelled.leads_blank ' ' rfl rfl

theorem leads_gap : Leads ", ".toList [.comma] :=
  leads_space (spells_token .comma trivial)

theorem leads_equals : Leads "= ".toList [.equals] :=
  leads_space (spells_token .equals trivial)

theorem leads_binding (name : String) (legal : (Token.identifier name).Legal) :
    Leads (name ++ " = ").toList [.identifier name, .equals] := by
  have named : Leads (name.toList ++ [' ']) [.identifier name] :=
    leads_space (spells_token (.identifier name) legal)
  have bound := named.append leads_equals
  simpa using bound

theorem leads_call (name : String) (legal : (Token.identifier name).Legal) :
    Leads (name ++ "(").toList [.identifier name, .leftParen] := by
  have named : Spells name.toList [.identifier name] := spells_token (.identifier name) legal
  have opened := named.leads_mark '(' .leftParen rfl trivial rfl rfl
  simpa using opened

theorem leads_key (raw : String) (legal : (Token.string raw).Legal) :
    Leads (raw ++ ": ").toList [.string raw, .colon] := by
  have key : Leads raw.toList [.string raw] := leads_token (.string raw) legal rfl
  have coloned := key.append (leads_space (spells_token .colon trivial))
  simpa [Token.text] using coloned

theorem spells_bracket : Spells "]".toList [.rightBracket] :=
  spells_token .rightBracket trivial

theorem spells_paren : Spells ")".toList [.rightParen] :=
  spells_token .rightParen trivial

theorem clear_bracket : Pattern.Clear Pattern.isJoining "]".toList :=
  (Pattern.clear_cons _ _ _).mpr rfl

theorem clear_paren : Pattern.Clear Pattern.isJoining ")".toList :=
  (Pattern.clear_cons _ _ _).mpr rfl

theorem clear_comma : Pattern.Clear Pattern.isJoining ",".toList :=
  (Pattern.clear_cons _ _ _).mpr rfl

/-- A text between an opening and a closing one. -/
theorem Spells.enclosed {text : String} {tokens : List Token} (opening closing : String)
    (front back : List Token) (leads : Leads opening.toList front)
    (spelled : Spells text.toList tokens)
    (clear : Pattern.Clear Pattern.isJoining closing.toList)
    (closed : Spells closing.toList back) :
    Spells (opening ++ text ++ closing).toList (front ++ (tokens ++ back)) := by
  rw [String.toList_append, String.toList_append, List.append_assoc]
  exact leads _ _ (spelled.append clear closed)

/-! ## Items -/

section

variable {σ τ α : Type} {form : σ → τ} {write : τ → Written α}

theorem tokens_unended (trailing : TrailingComma) (items : List τ) :
    ((ListForm.mk items false).written trailing write).tokens = itemTokens (items.map write) := by
  simp [ListForm.written, list, trailingComma]

/-- With a comma behind the last item every item has one behind it. -/
theorem tokens_ended (trailing : TrailingComma) (items : List τ) :
    ((ListForm.mk items true).written trailing write).tokens =
      items.flatMap fun item => (write item).tokens ++ [.comma] := by
  induction items with
  | nil => rfl
  | cons item others ih =>
    cases others with
    | nil => simp [ListForm.written, list, itemTokens, trailingComma]
    | cons next later =>
      simp only [ListForm.written, list, trailingComma, List.map_cons] at ih ⊢
      rw [itemTokens_cons_cons, List.flatMap_cons, ← ih]
      simp

theorem spells_items (trailing : TrailingComma) (sources : List σ) (text : σ → String)
    (each : ∀ item ∈ sources, Spells (text item).toList (write (form item)).tokens) :
    Spells (", ".intercalate (sources.map text)).toList
      ((ListForm.mk (sources.map form) false).written trailing write).tokens := by
  rw [tokens_unended]
  induction sources with
  | nil => exact .nil
  | cons item others ih =>
    have first := each item (by simp)
    have rest := ih (fun later member => each later (by simp [member]))
    cases others with
    | nil => simpa [itemTokens] using first
    | cons next later =>
      simp only [List.map_cons] at rest ⊢
      rw [itemTokens_cons_cons, String.intercalate_cons_cons, String.toList_append,
        String.toList_append, List.append_assoc]
      exact first.append ((Pattern.clear_cons _ _ _).mpr rfl) (leads_gap _ _ rest)

theorem spells_bracketed (trailing : TrailingComma) (sources : List σ) (text : σ → String)
    (each : ∀ item ∈ sources, Spells (text item).toList (write (form item)).tokens) :
    Spells (bracketed (sources.map text)).toList
      (((ListForm.mk (sources.map form) false).written trailing write).between
        .leftBracket .rightBracket).tokens := by
  have items := spells_items trailing sources text each
  have opened : Leads "[".toList [.leftBracket] := leads_token .leftBracket trivial rfl
  exact items.enclosed "[" "]" _ _ opened clear_bracket spells_bracket

end

variable {π : Type}

/-! ## Arrays and globs -/

theorem Phrase.spells (phrase : Phrase π) (legal : phrase.WellFormed) :
    Spells phrase.raw.toList phrase.form.written.tokens := by
  cases phrase with
  | string literal => exact spells_token (.string literal.raw) legal
  | identifier node => exact spells_token (.identifier node.name) legal

theorem Element.spells (element : Element π) (legal : element.WellFormed) :
    Spells element.raw.toList element.form.written.tokens := by
  cases element with
  | string literal => exact spells_token (.string literal.raw) legal
  | number literal => exact spells_token (.number literal.raw) legal
  | boolean literal => exact spells_token (.boolean literal.value) trivial
  | identifier node => exact spells_token (.identifier node.name) legal

theorem ArrayLiteral.spells (array : ArrayLiteral π) (legal : array.WellFormed) :
    Spells array.text.toList (Written.array array.form).tokens :=
  spells_bracketed (.rejected .array) array.elements Element.raw
    fun element member => element.spells (legal element member)

theorem ArrayOrName.spells (node : ArrayOrName π) (legal : node.WellFormed) :
    Spells node.text.toList node.form.written.tokens := by
  cases node with
  | array node => exact node.spells legal
  | identifier node => exact spells_token (.identifier node.name) legal

theorem Phrase.spells_patterns (patterns : List (Phrase π))
    (legal : ∀ pattern ∈ patterns, pattern.WellFormed) :
    Spells (bracketed (patterns.map Phrase.raw)).toList
      (Written.patterns ⟨patterns.map Phrase.form, false⟩).tokens :=
  spells_bracketed (.rejected .array) patterns Phrase.raw
    fun pattern member => pattern.spells (legal pattern member)

def GlobArgument.text : GlobArgument π → String
  | .includes patterns => bracketed (patterns.map Phrase.raw)
  | .excludes patterns => "exclude = " ++ bracketed (patterns.map Phrase.raw)

theorem Glob.text_arguments (glob : Glob π) :
    glob.text = "glob(" ++ ", ".intercalate (glob.arguments.map GlobArgument.text) ++ ")" := by
  obtain ⟨includes, excludes, position⟩ := glob
  cases includes <;> cases excludes <;> rfl

theorem Glob.spells_argument (glob : Glob π) (legal : glob.WellFormed) :
    ∀ argument ∈ glob.arguments,
      Spells (GlobArgument.text argument).toList (GlobArgument.form argument).written.tokens := by
  intro argument member
  simp only [arguments, List.mem_append, Option.mem_toList, Option.map_eq_some_iff]
    at member
  rcases member with ⟨patterns, given, rfl⟩ | ⟨patterns, given, rfl⟩
  · exact Phrase.spells_patterns patterns (legal.includes patterns given)
  · have name : (Token.identifier "exclude").Legal := by decide
    have listed := Phrase.spells_patterns patterns (legal.excludes patterns given)
    have bound := leads_binding "exclude" name _ _ listed
    simpa [GlobArgument.text, GlobArgument.form, GlobArgumentForm.written, Written.name]
      using bound

theorem Glob.spells (glob : Glob π) (legal : glob.WellFormed) :
    Spells glob.text.toList (Written.glob glob.form).tokens := by
  have items : Spells (", ".intercalate (glob.arguments.map GlobArgument.text)).toList
      (glob.form.written .allowed GlobArgumentForm.written).tokens :=
    spells_items .allowed glob.arguments GlobArgument.text (glob.spells_argument legal)
  have word : Spells "glob".toList [.glob] := spells_token .glob trivial
  have opened : Leads "glob(".toList [.glob, .leftParen] :=
    word.leads_mark '(' .leftParen rfl trivial rfl rfl
  rw [text_arguments]
  exact items.enclosed "glob(" ")" _ _ opened clear_paren spells_paren

/-! ## Values -/

def Entry.layout (entry : Entry π (Value π)) : List Line :=
  Line.besideAll [Line.single (entry.key.raw ++ ": "), entry.value.layout, Line.single ","]

theorem Value.layoutEntries_eq (entries : List (Entry π (Value π))) :
    Value.layoutEntries entries = entries.flatMap Entry.layout := by
  induction entries with
  | nil => rw [Value.layoutEntries, List.flatMap_nil]
  | cons entry rest ih =>
    rw [Value.layoutEntries, List.flatMap_cons, ih]
    rfl

theorem Entry.spells_layout (entry : Entry π (Value π)) (legal : entry.WellFormed)
    (value : SpellsLines entry.value.layout entry.value.form.written.tokens) :
    SpellsLines entry.layout (entry.form.written.tokens ++ [.comma]) := by
  have key := leads_key entry.key.raw legal.key
  have whole := SpellsLines.enclosed _ "," _ _ key value clear_comma
    (spells_token .comma trivial)
  simpa [EntryForm.written, Written.entry, Written.string, Entry.form, Entry.layout] using whole

theorem Dict.spells_layout (node : Dict π (Value π))
    (legal : ∀ entry ∈ node.entries, entry.WellFormed)
    (each : ∀ entry ∈ node.entries,
      SpellsLines entry.value.layout entry.value.form.written.tokens) :
    SpellsLines (Line.block "\x7b" (Value.layoutEntries node.entries) "\x7d")
      (Written.dictOf node.form).tokens := by
  have entries : SpellsLines (Value.layoutEntries node.entries)
      (node.form.written .allowed EntryForm.written).tokens := by
    rw [Value.layoutEntries_eq, Dict.form, tokens_ended, List.flatMap_map]
    exact .flatMap _ _ _ fun entry member =>
      entry.spells_layout (legal entry member) (each entry member)
  have opened : Leads "\x7b".toList [.leftBrace] := leads_token .leftBrace trivial rfl
  have closed : Spells "\x7d".toList [.rightBrace] := spells_token .rightBrace trivial
  exact entries.block "\x7b" "\x7d" _ _ opened closed

theorem Select.messageText_none : Select.messageText (none : Option (Phrase π)) = "" :=
  rfl

theorem Select.messageText_some (phrase : Phrase π) :
    Select.messageText (some phrase) = ", no_match_error = " ++ phrase.raw :=
  rfl

theorem Select.spells_message (message : Option (Phrase π))
    (legal : ∀ phrase ∈ message, Phrase.WellFormed phrase) :
    Spells (Select.messageText message ++ ")").toList
      ((Written.optional ((message.map Phrase.form).map Written.message)).tokens ++
        [.rightParen]) := by
  cases message with
  | none =>
    rw [messageText_none, String.empty_append]
    exact spells_paren
  | some phrase =>
    have name : (Token.identifier "no_match_error").Legal := by decide
    have bound : Leads ", no_match_error = ".toList
        [.comma, .identifier "no_match_error", .equals] := by
      simpa using leads_gap.append (leads_binding "no_match_error" name)
    have whole := (phrase.spells (legal phrase rfl)).enclosed ", no_match_error = " ")" _ _
      bound clear_paren spells_paren
    simpa [messageText_some, Written.optional, Written.message] using whole

theorem Select.clear_message (message : Option (Phrase π)) :
    Pattern.Clear Pattern.isJoining (Select.messageText message ++ ")").toList := by
  cases message with
  | none =>
    rw [messageText_none, String.empty_append]
    exact clear_paren
  | some phrase =>
    simp [messageText_some, Pattern.clear_cons, Pattern.isJoining, Pattern.isWordPart,
      Pattern.isWordStart, Pattern.isDigit]

theorem Select.spells_enclose (node : Select π (Value π)) (constraint : List Line)
    (spelled : SpellsLines constraint node.constraint.form.written.tokens)
    (legal : ∀ phrase ∈ node.noMatchError, Phrase.WellFormed phrase) :
    SpellsLines (Select.enclose constraint node.noMatchError) node.form.written.tokens := by
  have name : (Token.identifier "select").Legal := by decide
  have whole := spelled.enclosed "select(" (Select.messageText node.noMatchError ++ ")") _ _
    (leads_call "select" name) (Select.clear_message _) (Select.spells_message _ legal)
  simpa [SelectForm.written, Written.select, Select.form, Select.enclose] using whole

/-- A value is laid out in lines that spell its canonical derivation. -/
theorem Value.spells_layout (value : Value π) (legal : value.WellFormed) :
    SpellsLines value.layout value.form.written.tokens := by
  induction value using Value.nestedInduction with
  | string literal => exact .single _ _ (spells_token (.string literal.raw) legal)
  | number literal => exact .single _ _ (spells_token (.number literal.raw) legal)
  | boolean literal => exact .single _ _ (spells_token (.boolean literal.value) trivial)
  | identifier node => exact .single _ _ (spells_token (.identifier node.name) legal)
  | array node => exact .single _ _ (node.spells legal)
  | glob node => exact .single _ _ (node.spells legal)
  | dict entries position each =>
    rw [Value.layout, Value.form_dict, ValueForm.written_dict]
    rw [Value.WellFormed, Value.entriesWellFormed_iff] at legal
    exact Dict.spells_layout ⟨entries, position⟩ legal
      fun entry member => each entry member (legal entry member).value
  | selectDict entries inner message position each =>
    rw [Value.layout, Value.form_select, ValueForm.written_select]
    rw [Value.WellFormed, Value.entriesWellFormed_iff] at legal
    have constraint := Dict.spells_layout ⟨entries, inner⟩ legal.1
      fun entry member => each entry member (legal.1 entry member).value
    exact Select.spells_enclose ⟨.dict ⟨entries, inner⟩, message, position⟩ _ constraint legal.2
  | selectName node message position =>
    rw [Value.layout, Value.form_select, ValueForm.written_select]
    rw [Value.WellFormed] at legal
    have constraint : SpellsLines (Line.single node.name) [.identifier node.name] :=
      .single _ _ (spells_token (.identifier node.name) legal.1)
    exact Select.spells_enclose ⟨.identifier node, message, position⟩ _ constraint legal.2

end BuildLang
