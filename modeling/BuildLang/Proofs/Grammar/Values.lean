import BuildLang.Proofs.Grammar.CommaList
import BuildLang.Proofs.Grammar.Form

/-!
# Reading values

Every derivation of a value is read as the tree it stands for, and nothing but
derivations is read without a fault.  Only what follows a value can matter: a
name in front of an opening parenthesis might begin a `select`.
-/

set_option autoImplicit false

namespace BuildLang.Parser

variable {follow : Option Token → Prop}

/-! ## Literals -/

theorem readsWritten_exactly (lexeme : Token) :
    ReadsWritten (exactly lexeme) (.leaf lexeme fun _ => ()) follow :=
  fun _ _ spans _ => (reads_exactly _ _ _ _ _).mpr ⟨rfl, spans⟩

theorem readsWritten_name (text : String) :
    ReadsWritten identifierName (.name text) follow :=
  .within .identifier (readsWritten_accept _ _ (.identifier text) text rfl)

theorem readsWritten_keyword (name : String) :
    ReadsWritten (keyword name) (.leaf (.identifier name) fun _ => ()) follow :=
  readsWritten_accept _ _ (.identifier name) () (if_pos rfl)

theorem readsWritten_string (raw : String) :
    ReadsWritten stringLiteral (.string raw) follow :=
  .within .string (.mapAt _ (readsWritten_accept _ _ (.string raw) raw rfl))

theorem readsWritten_number (raw : String) :
    ReadsWritten numberLiteral (.number raw) follow :=
  .within .number (.mapAt _ (readsWritten_accept _ _ (.number raw) raw rfl))

theorem readsWritten_boolean (value : Bool) :
    ReadsWritten booleanLiteral (.boolean value) follow :=
  .mapAt _ (readsWritten_accept _ _ (.boolean value) value rfl)

theorem readsWritten_identifier (text : String) :
    ReadsWritten identifier (.identifier text) follow :=
  .mapAt _ (readsWritten_name text)

theorem readsOnly_exactly (lexeme : Token) :
    ReadsOnly (exactly lexeme) (fun _ : Unit => .leaf lexeme fun _ => ()) := by
  intro cursor value next reads
  obtain ⟨_, spans⟩ := (reads_exactly _ _ _ _ _).mp reads
  exact ⟨(), spans, rfl, rfl⟩

theorem readsOnly_name : ReadsOnly identifierName Written.name := by
  refine .within .identifier (readsOnly_accept _ _ _ ?_)
  intro lexeme name read
  cases lexeme <;> cases read
  exact ⟨name, rfl⟩

theorem readsOnly_keyword (name : String) :
    ReadsOnly (keyword name) (fun _ : Unit => .leaf (.identifier name) fun _ => ()) := by
  refine readsOnly_accept _ _ _ ?_
  intro lexeme value read
  split at read
  · rename_i same
    exact ⟨(), by rw [same]⟩
  · cases read

theorem readsOnly_string : ReadsOnly stringLiteral Written.string := by
  refine .within .string (.mapAt (fun start raw => StringLiteral.mk raw (some start))
    (readsOnly_accept _ _ (fun raw => .leaf (.string raw) fun _ => raw) ?_))
  intro lexeme raw read
  cases lexeme <;> cases read
  exact ⟨raw, rfl⟩

theorem readsOnly_number : ReadsOnly numberLiteral Written.number := by
  refine .within .number (.mapAt (fun start raw => NumberLiteral.mk raw (some start))
    (readsOnly_accept _ _ (fun raw => .leaf (.number raw) fun _ => raw) ?_))
  intro lexeme raw read
  cases lexeme <;> cases read
  exact ⟨raw, rfl⟩

theorem readsOnly_boolean : ReadsOnly booleanLiteral Written.boolean := by
  refine .mapAt (fun start value => BooleanLiteral.mk value (some start))
    (readsOnly_accept _ _ (fun value => .leaf (.boolean value) fun _ => value) ?_)
  intro lexeme value read
  cases lexeme <;> cases read
  exact ⟨value, rfl⟩

theorem readsOnly_identifier : ReadsOnly identifier Written.identifier :=
  .mapAt (fun start name => Identifier.mk name (some start)) readsOnly_name

section

variable {lexeme : Token}

@[simp]
theorem refusesToken_name (different : ∀ name, lexeme ≠ .identifier name) :
    RefusesToken identifierName lexeme := by
  refine .within _ (refusesToken_accept _ _ ?_)
  split
  · exact absurd rfl (different _)
  · rfl

@[simp]
theorem refusesToken_keyword (name : String) (different : lexeme ≠ .identifier name) :
    RefusesToken (keyword name) lexeme :=
  refusesToken_accept _ _ (if_neg different)

@[simp]
theorem refusesToken_string (different : ∀ raw, lexeme ≠ .string raw) :
    RefusesToken stringLiteral lexeme := by
  refine .within _ (.mapAt _ (refusesToken_accept _ _ ?_))
  split
  · exact absurd rfl (different _)
  · rfl

@[simp]
theorem refusesToken_number (different : ∀ raw, lexeme ≠ .number raw) :
    RefusesToken numberLiteral lexeme := by
  refine .within _ (.mapAt _ (refusesToken_accept _ _ ?_))
  split
  · exact absurd rfl (different _)
  · rfl

@[simp]
theorem refusesToken_boolean (different : ∀ value, lexeme ≠ .boolean value) :
    RefusesToken booleanLiteral lexeme := by
  refine .mapAt _ (refusesToken_accept _ _ ?_)
  split
  · exact absurd rfl (different _)
  · rfl

@[simp]
theorem refusesToken_identifier (different : ∀ name, lexeme ≠ .identifier name) :
    RefusesToken identifier lexeme :=
  .mapAt _ (refusesToken_name different)

end

/-- An alternative that the first token decides for. -/
theorem ReadsWritten.choose {α : Type} {parser : Parser α} {written : Written α}
    (front back : List (Parser α)) (lexeme : Token) (reads : ReadsWritten parser written follow)
    (first : written.tokens.head? = some lexeme)
    (refuse : ∀ other ∈ front, RefusesToken other lexeme) :
    ReadsWritten (Parser.choice (front ++ parser :: back)) written follow := by
  refine ReadsWritten.choice front back reads ?_
  intro other member cursor next spans _
  apply refuse other member
  rw [spans.1, List.head?_append, first]
  rfl

/-! ## Arrays and globs -/

theorem readsWritten_phrase (form : PhraseForm) : ReadsWritten phrase form.written follow := by
  cases form with
  | string raw => exact .choose [] _ (.string raw) (.map _ (readsWritten_string raw)) rfl (by simp)
  | identifier name =>
    exact .choose [_] _ (.identifier name) (.map _ (readsWritten_identifier name)) rfl (by simp)

theorem readsWritten_element (form : ElementForm) :
    ReadsWritten element form.written follow := by
  cases form with
  | string raw => exact .choose [] _ (.string raw) (.map _ (readsWritten_string raw)) rfl (by simp)
  | number raw =>
    exact .choose [_] _ (.number raw) (.map _ (readsWritten_number raw)) rfl (by simp)
  | boolean value =>
    exact .choose [_, _] _ (.boolean value) (.map _ (readsWritten_boolean value)) rfl (by simp)
  | identifier name =>
    exact .choose [_, _, _] _ (.identifier name) (.map _ (readsWritten_identifier name)) rfl
      (by simp)

theorem readsOnly_phrase : ReadsOnly phrase PhraseForm.written := by
  refine readsOnly_choice _ ?_
  simp only [List.mem_cons, List.not_mem_nil, or_false, forall_eq_or_imp, forall_eq]
  exact ⟨.rewrite (.map _ readsOnly_string) .string (fun _ => rfl),
    .rewrite (.map _ readsOnly_identifier) .identifier (fun _ => rfl)⟩

theorem readsOnly_element : ReadsOnly element ElementForm.written := by
  refine readsOnly_choice _ ?_
  simp only [List.mem_cons, List.not_mem_nil, or_false, forall_eq_or_imp, forall_eq]
  exact ⟨.rewrite (.map _ readsOnly_string) .string (fun _ => rfl),
    .rewrite (.map _ readsOnly_number) .number (fun _ => rfl),
    .rewrite (.map _ readsOnly_boolean) .boolean (fun _ => rfl),
    .rewrite (.map _ readsOnly_identifier) .identifier (fun _ => rfl)⟩

theorem element_closed : RefusesToken element .rightBracket := by
  apply refusesToken_choice
  simp

theorem phrase_closed : RefusesToken phrase .rightBracket := by
  apply refusesToken_choice
  simp

theorem readsWritten_array (form : ListForm ElementForm) :
    ReadsWritten arrayLiteral (.array form) follow := by
  have elements : ReadsWritten (commaList (.rejected .array) element)
      (form.written (.rejected .array) ElementForm.written) (· = some .rightBracket) :=
    readsWritten_commaList _ _ _ _ form (by simp) (fun source _ => readsWritten_element source)
      element_closed
  exact .within _ (.mapAt _ (elements.between .leftBracket .rightBracket))

theorem readsOnly_array : ReadsOnly arrayLiteral Written.array := by
  have elements := readsOnly_commaList (.rejected .array) element _ readsOnly_element
  exact .within _ (.mapAt (fun start elements => ArrayLiteral.mk elements (some start))
    (elements.between .leftBracket .rightBracket))

@[simp]
theorem refusesToken_array {lexeme : Token} (different : lexeme ≠ .leftBracket) :
    RefusesToken arrayLiteral lexeme :=
  .within _ (.mapAt _ (refusesToken_between _ _ different))

/-- An alternative of two that the first token decides for. -/
theorem ReadsWritten.chooseSecond {α : Type} {parser : Parser α} {written : Written α}
    (first : Parser α) (lexeme : Token) (reads : ReadsWritten parser written follow)
    (head : written.tokens.head? = some lexeme) (refuse : RefusesToken first lexeme) :
    ReadsWritten (first.orElse parser) written follow := by
  refine ReadsWritten.orElse_second first reads ?_
  intro cursor next spans
  apply refuse
  rw [spans.1, List.head?_append, head]
  rfl

theorem ReadsWritten.chooseFirst {α : Type} {parser : Parser α} {written : Written α}
    (second : Parser α) (lexeme : Token) (reads : ReadsWritten parser written follow)
    (head : written.tokens.head? = some lexeme) (refuse : RefusesToken second lexeme) :
    ReadsWritten (parser.orElse second) written follow := by
  refine ReadsWritten.orElse_first second reads ?_
  intro cursor next spans
  apply refuse
  rw [spans.1, List.head?_append, head]
  rfl

theorem readsWritten_arrayOrName (form : ArrayOrNameForm) :
    ReadsWritten arrayOrName form.written follow := by
  cases form with
  | array form =>
    exact .chooseFirst _ .leftBracket (.map _ (readsWritten_array form)) rfl (by simp)
  | identifier name =>
    exact .chooseSecond _ (.identifier name) (.map _ (readsWritten_identifier name)) rfl (by simp)

theorem readsOnly_arrayOrName : ReadsOnly arrayOrName ArrayOrNameForm.written :=
  .orElse (.rewrite (.map _ readsOnly_array) .array (fun _ => rfl))
    (.rewrite (.map _ readsOnly_identifier) .identifier (fun _ => rfl))

theorem readsWritten_patterns (form : ListForm PhraseForm) :
    ReadsWritten patterns (.patterns form) follow := by
  have phrases : ReadsWritten (commaList (.rejected .array) phrase)
      (form.written (.rejected .array) PhraseForm.written) (· = some .rightBracket) :=
    readsWritten_commaList _ _ _ _ form (by simp) (fun source _ => readsWritten_phrase source)
      phrase_closed
  exact phrases.between .leftBracket .rightBracket

theorem readsOnly_patterns : ReadsOnly patterns Written.patterns :=
  .between _ _ (readsOnly_commaList (.rejected .array) phrase _ readsOnly_phrase)

@[simp]
theorem refusesToken_patterns {lexeme : Token} (different : lexeme ≠ .leftBracket) :
    RefusesToken patterns lexeme :=
  refusesToken_between _ _ different

/-- What stands in front of the equals sign of a named argument. -/
theorem readsWritten_key (name : String) :
    ReadsWritten (identifierName.seqLeft (exactly .equals)) ((Written.name name).before [.equals])
      (fun _ => True) :=
  .before .equals (readsWritten_name name)

@[simp]
theorem refusesToken_binding {α : Type} {lexeme : Token} (parser : Parser α)
    (different : ∀ name, lexeme ≠ .identifier name) :
    RefusesToken ((identifierName.seqLeft (exactly .equals)).seq parser) lexeme :=
  .seq _ (.seqLeft _ (refusesToken_name different))

theorem readsWritten_globArgument (form : GlobArgumentForm) :
    ReadsWritten globArgument form.written follow := by
  cases form with
  | plain form =>
    exact .chooseFirst _ .leftBracket (.map _ (readsWritten_patterns form)) rfl (by simp)
  | named name form =>
    have named : ReadsWritten ((identifierName.seqLeft (exactly .equals)).seq patterns)
        (((Written.name name).before [.equals]).seq (.patterns form)) follow :=
      .seq (readsWritten_key name) (readsWritten_patterns form) (fun _ _ _ _ => trivial)
    exact .chooseSecond _ (.identifier name) (.map _ named) rfl (by simp)

theorem readsOnly_globArgument : ReadsOnly globArgument GlobArgumentForm.written := by
  have named := (readsOnly_name.before .equals).seq readsOnly_patterns
  exact .orElse (.rewrite (.map _ readsOnly_patterns) .plain (fun _ => rfl))
    (.rewrite (.map (fun pair => GlobArgument.named pair.1 pair.2) named)
      (fun form : String × ListForm PhraseForm => .named form.1 form.2) (fun _ => rfl))

theorem globArgument_closed : RefusesToken globArgument .rightParen := by
  apply RefusesToken.orElse
  · simp
  · simp

theorem readsWritten_glob (form : ListForm GlobArgumentForm) :
    ReadsWritten glob (.glob form) follow := by
  have arguments : ReadsWritten (commaList .allowed globArgument)
      (form.written .allowed GlobArgumentForm.written) (· = some .rightParen) :=
    readsWritten_commaList _ _ _ _ form (by simp)
      (fun source _ => readsWritten_globArgument source) globArgument_closed
  exact .within _ (.mapAt _ (.behind .glob (arguments.between .leftParen .rightParen)))

theorem readsOnly_glob : ReadsOnly glob Written.glob := by
  have arguments := readsOnly_commaList .allowed globArgument _ readsOnly_globArgument
  exact .within _ (.mapAt (fun start => Glob.ofArguments (some start))
    (.behind .glob (arguments.between .leftParen .rightParen)))

@[simp]
theorem refusesToken_glob {lexeme : Token} (different : lexeme ≠ .glob) :
    RefusesToken glob lexeme :=
  .within _ (.mapAt _ (.seqRight _ (refusesToken_exactly _ different)))

/-! ## Dicts and selects -/

theorem admits_inList (form : ValueForm) (closing : Token) (apart : closing ≠ .leftParen)
    (found : Option Token) (inList : InList closing found) : form.Admits found := by
  intro _
  rcases inList with rfl | rfl
  · simp
  · simpa using apart

theorem readsWritten_entry (value : Parser (Value Nat)) (form : EntryForm ValueForm)
    (inner : ReadsWritten value form.value.written form.value.Admits) :
    ReadsWritten (entry value) form.written (InList .rightBrace) := by
  have key : ReadsWritten (stringLiteral.seqLeft (exactly .colon))
      ((Written.string form.key).before [.colon]) (fun _ => True) :=
    .before .colon (readsWritten_string form.key)
  have both := key.seq (inner.weaken (admits_inList form.value .rightBrace (by simp)))
    (fun _ _ _ _ => trivial)
  exact both.map _

theorem readsOnly_entry (value : Parser (Value Nat)) (inner : ReadsOnly value ValueForm.written) :
    ReadsOnly (entry value) EntryForm.written := by
  have both := (readsOnly_string.before .colon).seq inner
  exact .rewrite
    (.map (fun pair : StringLiteral Nat × Value Nat => Entry.mk pair.1 pair.2) both)
    (fun form : String × ValueForm => EntryForm.mk form.1 form.2) (fun _ => rfl)

theorem entry_closed (value : Parser (Value Nat)) : RefusesToken (entry value) .rightBrace :=
  .map _ (.seq _ (.seqLeft _ (refusesToken_string (by simp))))

theorem readsWritten_dict (value : Parser (Value Nat)) (form : ListForm (EntryForm ValueForm))
    (inner : ∀ source ∈ form.items, ReadsWritten value source.value.written source.value.Admits) :
    ReadsWritten (dict value) (.dictOf form) follow := by
  have entries : ReadsWritten (commaList .allowed (entry value))
      (form.written .allowed EntryForm.written) (· = some .rightBrace) :=
    readsWritten_commaList _ _ _ _ form (by simp)
      (fun source member => readsWritten_entry value source (inner source member))
      (entry_closed value)
  exact .within _ (.mapAt _ (entries.between .leftBrace .rightBrace))

theorem readsOnly_dict (value : Parser (Value Nat)) (inner : ReadsOnly value ValueForm.written) :
    ReadsOnly (dict value) Written.dictOf := by
  have entries := readsOnly_commaList .allowed (entry value) _ (readsOnly_entry value inner)
  exact .within _ (.mapAt (fun start entries => Dict.mk entries (some start))
    (entries.between .leftBrace .rightBrace))

@[simp]
theorem refusesToken_dict {lexeme : Token} (value : Parser (Value Nat))
    (different : lexeme ≠ .leftBrace) : RefusesToken (dict value) lexeme :=
  .within _ (.mapAt _ (refusesToken_between _ _ different))

theorem readsWritten_constraint (value : Parser (Value Nat)) (form : ConstraintForm ValueForm)
    (inner : ∀ entries, form = .dict entries →
      ∀ source ∈ entries.items, ReadsWritten value source.value.written source.value.Admits) :
    ReadsWritten (constraint value) form.written follow := by
  cases form with
  | dict entries =>
    exact .chooseFirst _ .leftBrace (.map _ (readsWritten_dict value entries (inner entries rfl)))
      rfl (by simp)
  | identifier name =>
    exact .chooseSecond _ (.identifier name) (.map _ (readsWritten_identifier name)) rfl (by simp)

theorem readsOnly_constraint (value : Parser (Value Nat))
    (inner : ReadsOnly value ValueForm.written) :
    ReadsOnly (constraint value) ConstraintForm.written :=
  .orElse (.rewrite (.map _ (readsOnly_dict value inner)) .dict (fun _ => rfl))
    (.rewrite (.map _ readsOnly_identifier) .identifier (fun _ => rfl))

theorem readsWritten_noMatchError (form : PhraseForm) :
    ReadsWritten noMatchError (.message form) follow := by
  have comma : ReadsWritten (exactly .comma) (.leaf .comma fun _ => ()) fun _ => True :=
    readsWritten_exactly .comma
  have name : ReadsWritten ((exactly .comma).seqRight (keyword "no_match_error"))
      (.behind [.comma] (.leaf (.identifier "no_match_error") fun _ => ())) fun _ => True :=
    (readsWritten_keyword "no_match_error").seqRight (fun _ => rfl) comma
  have equals : ReadsWritten
      (((exactly .comma).seqRight (keyword "no_match_error")).seqRight (exactly .equals))
      (.behind [.comma, .identifier "no_match_error"] (.leaf .equals fun _ => ())) fun _ => True :=
    (readsWritten_exactly .equals).seqRight (fun _ => rfl) name
  exact (readsWritten_phrase form).seqRight (fun _ => rfl) equals

theorem readsOnly_noMatchError : ReadsOnly noMatchError Written.message := by
  have name := (readsOnly_keyword "no_match_error").seqRight (readsOnly_exactly .comma)
  have equals := (readsOnly_exactly .equals).seqRight name
  exact .rewrite (readsOnly_phrase.seqRight equals) Prod.snd (fun _ => rfl)

theorem readsWritten_select (value : Parser (Value Nat)) (form : SelectForm ValueForm)
    (inner : ∀ entries, form.constraint = .dict entries →
      ∀ source ∈ entries.items, ReadsWritten value source.value.written source.value.Admits) :
    ReadsWritten (select value) form.written follow := by
  have first : ReadsWritten (constraint value) form.constraint.written (fun _ => True) :=
    readsWritten_constraint value form.constraint inner
  have closed : RefusesToken noMatchError .rightParen :=
    .seqRight _ (.seqRight _ (.seqRight _ (refusesToken_exactly _ (by simp))))
  have second : ReadsWritten (Parser.optional noMatchError)
      (.optional (form.message.map .message)) (· = some .rightParen) := by
    cases form.message with
    | none => exact readsWritten_optional_none _ closed
    | some message => exact (readsWritten_noMatchError message).optional_some
  have both := first.seq second (fun _ _ _ _ => trivial)
  have name : ReadsWritten (keyword "select") (.leaf (.identifier "select") fun _ => ())
      (fun _ => True) := readsWritten_keyword "select"
  exact .within _ (.mapAt _ ((both.between .leftParen .rightParen).seqRight (fun _ => rfl) name))

theorem readsOnly_select (value : Parser (Value Nat)) (inner : ReadsOnly value ValueForm.written) :
    ReadsOnly (select value) SelectForm.written := by
  have both := (readsOnly_constraint value inner).seq readsOnly_noMatchError.optional
  have call := (both.between .leftParen .rightParen).seqRight (readsOnly_keyword "select")
  exact .within _ (.rewrite
    (.mapAt (fun start pair => Select.mk pair.1 pair.2 (some start)) call)
    (fun form : Unit × ConstraintForm ValueForm × Option PhraseForm =>
      SelectForm.mk form.2.1 form.2.2) (fun _ => rfl))

@[simp]
theorem refusesToken_select {lexeme : Token} (value : Parser (Value Nat))
    (different : lexeme ≠ .identifier "select") : RefusesToken (select value) lexeme :=
  .within _ (.mapAt _ (.seqRight _ (refusesToken_keyword _ different)))

/-- A name in front of anything but a parenthesis is no call of `select`. -/
theorem refuses_select (value : Parser (Value Nat)) (cursor next : Cursor) (name : String)
    (spans : Spans cursor [.identifier name] next)
    (after : name = "select" → next.rest.head? ≠ some .leftParen) :
    Refuses (select value) cursor := by
  by_cases same : name = "select"
  · subst same
    have reads : ReadsWritten (keyword "select") (.leaf (.identifier "select") fun _ => ())
        (fun _ => True) := readsWritten_keyword "select"
    have called : Reads (keyword "select") cursor [] () next := reads cursor next spans trivial
    have noCall : Refuses (callArguments ((constraint value).seq (Parser.optional noMatchError)))
        next := refuses_between _ _ _ next (after rfl)
    exact refuses_within _ _ _ (refuses_mapAt _ _ _ (refuses_map _ _ _
      (refuses_seq_second _ _ _ next () called noCall)))
  · refine refusesToken_select value ?_ cursor (congrArg List.head? spans.1)
    simpa using same

/-! ## Values -/

theorem length_le_itemTokens {α : Type} (items : List (Written α)) (item : Written α)
    (member : item ∈ items) : item.tokens.length ≤ (Written.itemTokens items).length := by
  cases items with
  | nil => simp at member
  | cons first others =>
    rw [Written.itemTokens, List.length_append]
    rcases List.mem_cons.mp member with rfl | later
    · omega
    · have part : Token.comma :: item.tokens ∈
          others.map fun item => Token.comma :: item.tokens :=
        List.mem_map.mpr ⟨item, later, rfl⟩
      have counted := (List.sublist_flatten_of_mem part).length_le
      rw [← List.flatMap_def, List.length_cons] at counted
      omega

/-- A value in a dict is written with fewer tokens than the dict. -/
theorem length_lt_dictOf (form : ListForm (EntryForm ValueForm)) (source : EntryForm ValueForm)
    (member : source ∈ form.items) :
    source.value.written.tokens.length < (Written.dictOf form).tokens.length := by
  have inside := length_le_itemTokens (form.items.map EntryForm.written) source.written
    (List.mem_map.mpr ⟨source, member, rfl⟩)
  have entry : source.written.tokens =
      .string source.key :: .colon :: source.value.written.tokens := rfl
  have dict : (Written.dictOf form).tokens = .leftBrace ::
      ((Written.itemTokens (form.items.map EntryForm.written) ++
        Written.trailingComma (form.items.map EntryForm.written) form.comma) ++ [.rightBrace]) :=
    rfl
  rw [entry, List.length_cons, List.length_cons] at inside
  rw [dict, List.length_cons, List.length_append, List.length_append]
  omega

theorem length_lt_select (form : SelectForm ValueForm)
    (entries : ListForm (EntryForm ValueForm)) (chosen : form.constraint = .dict entries) :
    (Written.dictOf entries).tokens.length < form.written.tokens.length := by
  obtain ⟨constraint, message⟩ := form
  obtain rfl : constraint = .dict entries := chosen
  have select : (SelectForm.mk (.dict entries) message).written.tokens =
      .identifier "select" :: .leftParen :: ((Written.dictOf entries).tokens ++
        (Written.optional (message.map Written.message)).tokens ++ [.rightParen]) := rfl
  rw [select, List.length_cons, List.length_cons, List.length_append, List.length_append]
  omega

theorem readsWritten_valueOver (value : Parser (Value Nat)) (form : ValueForm)
    (inner : ∀ smaller : ValueForm,
      smaller.written.tokens.length < form.written.tokens.length →
        ReadsWritten value smaller.written smaller.Admits) :
    ReadsWritten (valueOver value) form.written form.Admits := by
  refine .within _ ?_
  cases form with
  | string raw => exact .choose [] _ (.string raw) (.map _ (readsWritten_string raw)) rfl (by simp)
  | number raw =>
    exact .choose [_] _ (.number raw) (.map _ (readsWritten_number raw)) rfl (by simp)
  | boolean value =>
    exact .choose [_, _] _ (.boolean value) (.map _ (readsWritten_boolean value)) rfl (by simp)
  | array form =>
    exact .choose [_, _, _] _ .leftBracket (.map _ (readsWritten_array form)) rfl (by simp)
  | glob form =>
    exact .choose [_, _, _, _] _ .glob (.map _ (readsWritten_glob form)) rfl (by simp)
  | dict form =>
    rw [ValueForm.written_dict] at inner ⊢
    have reads : ReadsWritten (dict value) (.dictOf form) (ValueForm.dict form).Admits :=
      readsWritten_dict value form
        (fun source member => inner source.value (length_lt_dictOf form source member))
    exact .choose [_, _, _, _, _] _ .leftBrace (.map _ reads) rfl (by simp)
  | select form =>
    rw [ValueForm.written_select] at inner ⊢
    have reads : ReadsWritten (select value) form.written (ValueForm.select form).Admits :=
      readsWritten_select value form (fun entries chosen source member =>
        inner source.value (Nat.lt_trans (length_lt_dictOf entries source member)
          (length_lt_select form entries chosen)))
    exact .choose [_, _, _, _, _, _] _ (.identifier "select") (.map _ reads) rfl (by simp)
  | identifier name =>
    have reads : ReadsWritten identifier (.identifier name) (ValueForm.identifier name).Admits :=
      readsWritten_identifier name
    refine .choice [_, _, _, _, _, _, _] [] (.map _ reads) ?_
    intro other member cursor next spans after
    have found : cursor.rest.head? = some (.identifier name) := congrArg List.head? spans.1
    simp only [List.mem_cons, List.not_mem_nil, or_false] at member
    rcases member with rfl | rfl | rfl | rfl | rfl | rfl | rfl
    · exact RefusesToken.map _ (refusesToken_string (by simp)) cursor found
    · exact RefusesToken.map _ (refusesToken_number (by simp)) cursor found
    · exact RefusesToken.map _ (refusesToken_boolean (by simp)) cursor found
    · exact RefusesToken.map _ (refusesToken_array (by simp)) cursor found
    · exact RefusesToken.map _ (refusesToken_glob (by simp)) cursor found
    · exact RefusesToken.map _ (refusesToken_dict _ (by simp)) cursor found
    · exact refuses_map _ _ _ (refuses_select value cursor next name spans
        (fun same => after (congrArg ValueForm.identifier same)))

theorem readsOnly_valueOver (value : Parser (Value Nat))
    (inner : ReadsOnly value ValueForm.written) :
    ReadsOnly (valueOver value) ValueForm.written := by
  refine .within _ (readsOnly_choice _ ?_)
  simp only [List.mem_cons, List.not_mem_nil, or_false, forall_eq_or_imp, forall_eq]
  exact ⟨.rewrite (.map _ readsOnly_string) .string (fun _ => rfl),
    .rewrite (.map _ readsOnly_number) .number (fun _ => rfl),
    .rewrite (.map _ readsOnly_boolean) .boolean (fun _ => rfl),
    .rewrite (.map _ readsOnly_array) .array (fun _ => rfl),
    .rewrite (.map _ readsOnly_glob) .glob (fun _ => rfl),
    .rewrite (.map _ (readsOnly_dict value inner)) .dict ValueForm.written_dict,
    .rewrite (.map _ (readsOnly_select value inner)) .select ValueForm.written_select,
    .rewrite (.map _ readsOnly_identifier) .identifier (fun _ => rfl)⟩

/-- Each level of dicts takes a token, so a value is not nested deeper than it is
long. -/
theorem readsWritten_valueWithin (depth : Nat) (form : ValueForm)
    (shallow : form.written.tokens.length ≤ depth) :
    ReadsWritten (valueWithin (depth + 1)) form.written form.Admits := by
  induction depth generalizing form with
  | zero =>
    refine readsWritten_valueOver _ form ?_
    intro smaller less
    omega
  | succ depth ih =>
    refine readsWritten_valueOver _ form ?_
    intro smaller less
    exact ih smaller (by omega)

theorem readsOnly_valueWithin (depth : Nat) : ReadsOnly (valueWithin depth) ValueForm.written := by
  induction depth with
  | zero =>
    intro cursor value next reads
    obtain ⟨faults, hint, reply, _⟩ := reads
    cases reply
  | succ depth ih => exact readsOnly_valueOver (valueWithin depth) ih

/-- The fuel of a value is the number of tokens that are left. -/
theorem reads_value (cursor next : Cursor) (commas : List SurplusComma) (found : Value Nat) :
    Reads value cursor commas found next ↔
      Reads (valueWithin (cursor.rest.length + 1)) cursor commas found next := by
  unfold Reads value
  exact Iff.rfl

theorem readsWritten_value (form : ValueForm) : ReadsWritten value form.written form.Admits := by
  intro cursor next spans after
  rw [reads_value]
  refine readsWritten_valueWithin cursor.rest.length form ?_ cursor next spans after
  rw [spans.1, List.length_append]
  omega

theorem readsOnly_value : ReadsOnly value ValueForm.written := by
  intro cursor found next reads
  rw [reads_value] at reads
  exact readsOnly_valueWithin (cursor.rest.length + 1) cursor found next reads

end BuildLang.Parser
