import BuildLang.Proofs.Grammar.Values

/-!
# Reading statements

Statements are read the way values are, with recovery and without: an argument
list that can be read is not skipped, and one that is skipped leaves a fault.
-/

set_option autoImplicit false

namespace BuildLang.Parser

variable {follow : Option Token → Prop}

/-! ## Argument lists -/

section

variable {α : Type}

theorem recoverParens_ok (list : Parser (List α)) (cursor : Cursor) (success : Success (List α))
    (read : (list cursor).outcome = .ok success) : recoverParens list cursor = list cursor := by
  simp only [recoverParens, read]

/-- A list that cannot be read is skipped only if it begins with a parenthesis, and
then there is a fault to tell. -/
theorem recoverParens_error (list : Parser (List α)) (cursor : Cursor) (fault : Fault)
    (failed : (list cursor).outcome = .error fault) :
    (∃ faults, recoverParens list cursor = ⟨faults, .error fault⟩) ∨
      ∃ faults next, faults ≠ [] ∧ cursor.rest.head? = some .leftParen ∧
        recoverParens list cursor = ⟨faults, .ok ⟨[], none, next⟩⟩ := by
  simp only [recoverParens, failed]
  cases closed : (skipParens cursor).2 with
  | none => exact .inl ⟨_, rfl⟩
  | some next =>
    have opened : cursor.rest.head? = some .leftParen := by
      unfold skipParens at closed
      split at closed
      · rename_i rest found
        rw [found]
        rfl
      · cases closed
    refine .inr ?_
    dsimp only
    cases last : ((list cursor).faults ++ (skipParens cursor).1.toList).getLast? with
    | none => exact ⟨[fault], next, by simp, opened, rfl⟩
    | some found =>
      have some : (list cursor).faults ++ (skipParens cursor).1.toList ≠ [] := by
        intro none
        rw [none] at last
        cases last
      refine ⟨_, next, ?_, opened, rfl⟩
      split
      · simp
      · exact some

theorem recoverParens_refuses (list : Parser (List α)) (cursor : Cursor)
    (different : cursor.rest.head? ≠ some .leftParen) (refuses : Refuses list cursor) :
    Refuses (recoverParens list) cursor := by
  obtain ⟨fault, reply⟩ := refuses
  have nothing : skipParens cursor = (none, none) := by
    unfold skipParens
    split
    · rename_i rest found
      rw [found] at different
      exact absurd rfl different
    · rfl
  exact ⟨fault, by simp [recoverParens, reply, nothing]⟩

theorem recoverParens_clean (list : Parser (List α)) (cursor next : Cursor) (values : List α)
    (reads : Reads (recoverParens list) cursor [] values next) :
    Reads list cursor [] values next := by
  obtain ⟨hint, reply⟩ := (reads_clean _ _ _ _).mp reads
  cases result : (list cursor).outcome with
  | ok success =>
    rw [recoverParens_ok list cursor success result] at reply
    exact (reads_clean _ _ _ _).mpr ⟨hint, reply⟩
  | error fault =>
    rcases recoverParens_error list cursor fault result with
      ⟨faults, failed⟩ | ⟨faults, stop, some, _, skipped⟩
    · rw [failed] at reply
      cases reply
    · rw [skipped] at reply
      cases reply
      exact absurd rfl some

variable (recovery : Recovery) (trailing : TrailingComma) (item : Parser α)

theorem argumentList_reads (cursor next : Cursor) (commas : List SurplusComma) (values : List α)
    (reads : Reads (callArguments (commaList trailing item)) cursor commas values next) :
    Reads (argumentList recovery trailing item) cursor commas values next := by
  cases recovery with
  | off => exact reads
  | on =>
    obtain ⟨faults, hint, reply, marks⟩ := reads
    have read : (callArguments (commaList trailing item) cursor).outcome =
        .ok ⟨values, hint, next⟩ := by rw [reply]
    exact ⟨faults, hint, (recoverParens_ok _ cursor _ read).trans reply, marks⟩

theorem argumentList_clean (cursor next : Cursor) (values : List α)
    (reads : Reads (argumentList recovery trailing item) cursor [] values next) :
    Reads (callArguments (commaList trailing item)) cursor [] values next := by
  cases recovery with
  | off => exact reads
  | on => exact recoverParens_clean _ cursor next values reads

theorem refuses_argumentList (cursor : Cursor)
    (different : cursor.rest.head? ≠ some .leftParen) :
    Refuses (argumentList recovery trailing item) cursor := by
  have refuses : Refuses (callArguments (commaList trailing item)) cursor :=
    refuses_between _ _ _ cursor different
  cases recovery with
  | off => exact refuses
  | on => exact recoverParens_refuses _ cursor different refuses

variable {item}

theorem readsWritten_argumentList {σ : Type} (write : σ → Written α) (form : ListForm σ)
    (each : ∀ source ∈ form.items, ReadsWritten item (write source) (InList .rightParen))
    (refuses : RefusesToken item .rightParen) :
    ReadsWritten (argumentList recovery trailing item)
      ((form.written trailing write).between .leftParen .rightParen) follow := by
  intro cursor next spans found
  have list := readsWritten_commaList trailing item .rightParen write form (by simp) each refuses
  exact argumentList_reads recovery trailing item cursor next _ _
    (list.between .leftParen .rightParen cursor next spans found)

theorem readsOnly_argumentList {σ : Type} (write : σ → Written α)
    (only : ReadsOnly item write) :
    ReadsOnly (argumentList recovery trailing item)
      (fun form : ListForm σ => (form.written trailing write).between .leftParen .rightParen) := by
  intro cursor values next reads
  have list := readsOnly_commaList trailing item write only
  exact list.between .leftParen .rightParen cursor values next
    (argumentList_clean recovery trailing item cursor next values reads)

end

/-! ## Loads -/

theorem readsWritten_symbol (form : SymbolForm) :
    ReadsWritten loadedSymbol form.written follow := by
  cases form with
  | plain raw =>
    exact .chooseFirst _ (.string raw) (.map _ (readsWritten_string raw)) rfl
      (.mapAt _ (refusesToken_binding _ (by simp)))
  | renamed name raw =>
    have renamed : ReadsWritten ((identifierName.seqLeft (exactly .equals)).seq stringLiteral)
        (((Written.name name).before [.equals]).seq (.string raw)) follow :=
      .seq (readsWritten_key name) (readsWritten_string raw) (fun _ _ _ _ => trivial)
    exact .chooseSecond _ (.identifier name) (.mapAt _ renamed) rfl (by simp)

theorem readsOnly_symbol : ReadsOnly loadedSymbol SymbolForm.written := by
  have renamed := (readsOnly_name.before .equals).seq readsOnly_string
  exact .orElse (.rewrite (.map _ readsOnly_string) .plain (fun _ => rfl))
    (.rewrite (.mapAt _ renamed) (fun form : String × String => .renamed form.1 form.2)
      (fun _ => rfl))

theorem symbol_closed : RefusesToken loadedSymbol .rightParen := by
  apply RefusesToken.orElse
  · simp
  · exact .mapAt _ (refusesToken_binding _ (by simp))

theorem readsWritten_load (form : LoadForm) : ReadsWritten load form.written follow := by
  have label : ReadsWritten (stringLiteral.seqLeft (exactly .comma))
      ((Written.string form.label).before [.comma]) (fun _ => True) :=
    .before .comma (readsWritten_string form.label)
  have symbols := readsWritten_commaList (.rejected .load) loadedSymbol .rightParen _
    form.symbols (by simp) (fun source _ => readsWritten_symbol source) symbol_closed
  have both := label.seq symbols (fun _ _ _ _ => trivial)
  exact .within _ (.mapAt _ (.behind .load (both.between .leftParen .rightParen)))

theorem readsOnly_load : ReadsOnly load LoadForm.written := by
  have symbols := readsOnly_commaList (.rejected .load) loadedSymbol _ readsOnly_symbol
  have both := (readsOnly_string.before .comma).seq symbols
  have call := (both.between .leftParen .rightParen).behind .load
  exact .within _ (.rewrite (.mapAt _ call)
    (fun form : String × ListForm SymbolForm => LoadForm.mk form.1 form.2) (fun _ => rfl))

@[simp]
theorem refusesToken_load {lexeme : Token} (different : lexeme ≠ .load) :
    RefusesToken load lexeme :=
  .within _ (.mapAt _ (.seqRight _ (refusesToken_exactly _ different)))

/-! ## Arguments -/

theorem readsWritten_argument (form : ArgumentForm) :
    ReadsWritten argument form.written form.value.Admits := by
  have both := (readsWritten_key form.name).seq (readsWritten_value form.value)
    (fun _ _ _ _ => trivial)
  exact both.map _

theorem readsOnly_argument : ReadsOnly argument ArgumentForm.written := by
  have both := (readsOnly_name.before .equals).seq readsOnly_value
  exact .rewrite (.map _ both) (fun form : String × ValueForm => ArgumentForm.mk form.1 form.2)
    (fun _ => rfl)

theorem refusesToken_argument {lexeme : Token} (different : ∀ name, lexeme ≠ .identifier name) :
    RefusesToken argument lexeme :=
  .map _ (refusesToken_binding _ different)

theorem readsWritten_arguments (recovery : Recovery) (form : ListForm ArgumentForm) :
    ReadsWritten (argumentList recovery .allowed argument) (.arguments form) follow :=
  readsWritten_argumentList recovery .allowed _ form
    (fun source _ => (readsWritten_argument source).weaken
      (admits_inList source.value .rightParen (by simp)))
    (refusesToken_argument (by simp))

theorem readsOnly_arguments (recovery : Recovery) :
    ReadsOnly (argumentList recovery .allowed argument) Written.arguments :=
  readsOnly_argumentList recovery .allowed _ readsOnly_argument

/-! ## Calls and declarations -/

theorem readsWritten_ruleName (name : String) (free : name ∉ callNames) :
    ReadsWritten ruleName (.name name) follow := by
  have known : (if reservedNames.contains name then none else some name) = some name :=
    if_neg (by simpa using free)
  exact .within _ (readsWritten_accept _ _ (.identifier name) name known)

theorem readsOnly_ruleName :
    ReadsOnly ruleName (fun form : { name // name ∉ callNames } => .name form.val) := by
  refine .within _ (readsOnly_accept _ _ _ ?_)
  intro lexeme name read
  cases lexeme with
  | identifier text =>
    dsimp only at read
    split at read
    · cases read
    · rename_i free
      cases read
      exact ⟨⟨name, by simpa using free⟩, rfl⟩
  | _ => cases read

theorem refusesToken_ruleName {lexeme : Token}
    (different : ∀ name, lexeme = .identifier name → name ∈ callNames) :
    RefusesToken ruleName lexeme := by
  refine .within _ (refusesToken_accept _ _ ?_)
  cases lexeme with
  | identifier name => exact if_pos (by simpa using different name rfl)
  | _ => rfl

theorem readsWritten_rule (recovery : Recovery) (form : RuleForm) :
    ReadsWritten (rule recovery) form.written follow := by
  have name : ReadsWritten ruleName (.name form.kind) (fun _ => True) :=
    readsWritten_ruleName form.kind form.free
  have attributes : ReadsWritten (argumentList recovery (.rejected .rule) ruleAttribute)
      ((form.attributes.written (.rejected .rule) ArgumentForm.ruleAttribute).between
        .leftParen .rightParen) follow :=
    readsWritten_argumentList recovery (.rejected .rule) _ form.attributes
      (fun source _ => (ReadsWritten.mapAt _ (readsWritten_argument source)).weaken
        (admits_inList source.value .rightParen (by simp)))
      (.mapAt _ (refusesToken_argument (by simp)))
  exact .mapAt _ (name.seq attributes (fun _ _ _ _ => trivial))

theorem readsOnly_rule (recovery : Recovery) : ReadsOnly (rule recovery) RuleForm.written := by
  have ruleAttributes : ReadsOnly ruleAttribute ArgumentForm.ruleAttribute :=
    .mapAt (fun start (argument : Argument Nat) =>
      Attribute.mk argument.name argument.value (some start)) readsOnly_argument
  have both := readsOnly_ruleName.seq
    (readsOnly_argumentList recovery (.rejected .rule) _ ruleAttributes)
  exact .rewrite (.mapAt (fun start (pair : String × List (Attribute Nat)) =>
      Rule.mk pair.1 pair.2 (some start)) both)
    (fun form : { name // name ∉ callNames } × ListForm ArgumentForm =>
      RuleForm.mk form.1.val form.1.property form.2) (fun _ => rfl)

theorem readsWritten_package (recovery : Recovery) (form : ListForm ArgumentForm) :
    ReadsWritten (package recovery) (.package form) follow := by
  have name : ReadsWritten (keyword "package") (.leaf (.identifier "package") fun _ => ())
      (fun _ => True) := readsWritten_keyword "package"
  exact .mapAt _ ((readsWritten_arguments recovery form).seqRight (fun _ => rfl) name)

theorem readsOnly_package (recovery : Recovery) :
    ReadsOnly (package recovery) Written.package := by
  have call := (readsOnly_arguments recovery).seqRight (readsOnly_keyword "package")
  exact .rewrite (.mapAt (fun start arguments => Package.ofArguments (some start) arguments) call)
    Prod.snd (fun _ => rfl)

theorem readsWritten_packageGroup (recovery : Recovery) (form : ListForm ArgumentForm) :
    ReadsWritten (packageGroup recovery) (.packageGroup form) follow := by
  have name : ReadsWritten (keyword "package_group")
      (.leaf (.identifier "package_group") fun _ => ()) (fun _ => True) :=
    readsWritten_keyword "package_group"
  exact .mapAt _ ((readsWritten_arguments recovery form).seqRight (fun _ => rfl) name)

theorem readsOnly_packageGroup (recovery : Recovery) :
    ReadsOnly (packageGroup recovery) Written.packageGroup := by
  have call := (readsOnly_arguments recovery).seqRight (readsOnly_keyword "package_group")
  exact .rewrite
    (.mapAt (fun start arguments => PackageGroup.ofArguments (some start) arguments) call)
    Prod.snd (fun _ => rfl)

theorem readsWritten_visibility (form : VisibilityForm) :
    ReadsWritten visibility form.written follow := by
  have comma : ReadsWritten (exactly .comma) (.leaf .comma fun _ => ()) fun _ => True :=
    readsWritten_exactly .comma
  have name : ReadsWritten ((exactly .comma).seqRight identifierName)
      (.behind [.comma] (.name form.name)) (· = some .equals) :=
    (readsWritten_name form.name).seqRight (fun _ => rfl) comma
  have key : ReadsWritten (((exactly .comma).seqRight identifierName).seqLeft (exactly .equals))
      ((Written.behind [.comma] (.name form.name)).before [.equals]) fun _ => True :=
    name.before .equals
  exact (readsWritten_arrayOrName form.files).seqRight (fun _ => rfl) key

theorem readsOnly_visibility : ReadsOnly visibility VisibilityForm.written := by
  have key := (readsOnly_name.seqRight (readsOnly_exactly .comma)).before .equals
  exact .rewrite (readsOnly_arrayOrName.seqRight key)
    (fun form : (Unit × String) × ArrayOrNameForm => VisibilityForm.mk form.1.2 form.2)
    (fun _ => rfl)

/-- A comma that nothing follows but the closing parenthesis names no visibility. -/
theorem refuses_visibility (cursor : Cursor)
    (last : cursor.rest.head? = some .rightParen ∨
      ∃ next, Spans cursor [.comma] next ∧ next.rest.head? = some .rightParen) :
    Refuses visibility cursor := by
  rcases last with found | ⟨next, comma, found⟩
  · have refuses : RefusesToken visibility .rightParen :=
      .seqRight _ (.seqLeft _ (.seqRight _ (refusesToken_exactly _ (by simp))))
    exact refuses cursor found
  · have skipped : Reads (exactly .comma) cursor [] () next :=
      (reads_exactly _ _ _ _ _).mpr ⟨rfl, comma⟩
    have noName : Refuses identifierName next := refusesToken_name (by simp) next found
    exact refuses_seqRight _ _ _ (refuses_seqLeft _ _ _ (refuses_map _ _ _
      (refuses_seq_second _ _ _ next () skipped noName)))

theorem reads_optionalVisibility (form : Option VisibilityForm) (cursor stop : Cursor)
    (spans : Spans cursor (Written.optional (form.map VisibilityForm.written)).tokens stop)
    (ends : Refuses visibility stop) :
    Reads (Parser.optional visibility) cursor
      ((Written.optional (form.map VisibilityForm.written)).surplus cursor.index)
      ((Written.optional (form.map VisibilityForm.written)).tree cursor.index) stop := by
  cases form with
  | none =>
    obtain rfl := (spans_nil cursor stop).mp spans
    exact reads_optional_none visibility stop ends
  | some visible =>
    have reads : ReadsWritten visibility visible.written (fun _ => True) :=
      readsWritten_visibility visible
    exact reads.optional_some cursor stop spans trivial

theorem reads_optionalComma (comma : Bool) (stop next : Cursor)
    (spans : Spans stop (if comma then [.comma] else []) next)
    (closed : next.rest.head? = some .rightParen) :
    (∃ found, Reads (Parser.optional (exactly .comma)) stop [] found next) ∧
      Refuses visibility stop := by
  cases comma with
  | true =>
    have comma : Reads (exactly .comma) stop [] () next :=
      (reads_exactly _ _ _ _ _).mpr ⟨rfl, spans⟩
    exact ⟨⟨some (), reads_optional_some _ _ _ _ _ comma⟩,
      refuses_visibility stop (.inr ⟨next, spans, closed⟩)⟩
  | false =>
    obtain rfl := (spans_nil stop next).mp spans
    have noComma : Refuses (exactly .comma) next := refusesToken_exactly _ (by simp) next closed
    exact ⟨⟨none, reads_optional_none _ _ noComma⟩, refuses_visibility next (.inl closed)⟩

theorem readsWritten_exportsFiles (form : ExportsFilesForm) :
    ReadsWritten exportsFiles form.written follow := by
  have name : ReadsWritten (keyword "exports_files")
      (.leaf (.identifier "exports_files") fun _ => ()) (fun _ => True) :=
    readsWritten_keyword "exports_files"
  have files : ReadsWritten arrayOrName form.files.written (fun _ => True) :=
    readsWritten_arrayOrName form.files
  have inner : ReadsWritten ((arrayOrName.seq (Parser.optional visibility)).seqLeft
      (Parser.optional (exactly .comma)))
      ((form.files.written.seq (.optional (form.visibility.map VisibilityForm.written))).before
        (if form.comma then [.comma] else [])) (· = some .rightParen) := by
    intro cursor next spans closed
    obtain ⟨stop, front, back⟩ := (spans_append _ _ _ _).mp spans
    obtain ⟨middle, first, second⟩ := (spans_append _ _ _ _).mp front
    obtain ⟨⟨found, comma⟩, ends⟩ := reads_optionalComma form.comma stop next back closed
    have left := files cursor middle first trivial
    have right := reads_optionalVisibility form.visibility middle stop second ends
    rw [first.2] at right
    have both := (reads_seq _ _ _ _ _ (_, _)).mpr ⟨middle, _, _, left, right, rfl⟩
    exact (reads_seqLeft _ _ _ _ _ _).mpr
      ⟨stop, _, [], found, both, comma, (List.append_nil _).symm⟩
  exact .mapAt _ ((inner.between .leftParen .rightParen).seqRight (fun _ => rfl) name)

theorem readsOnly_optionalComma :
    ReadsOnly (Parser.optional (exactly .comma))
      (fun comma : Bool => ⟨if comma then [.comma] else [],
        fun _ => if comma then some () else none, fun _ => []⟩) := by
  refine (readsOnly_exactly .comma).optional.rewrite Option.isSome ?_
  intro found
  cases found with
  | none => rfl
  | some comma => rfl

theorem readsOnly_exportsFiles : ReadsOnly exportsFiles ExportsFilesForm.written := by
  have both := readsOnly_arrayOrName.seq readsOnly_visibility.optional
  have inner : ReadsOnly ((arrayOrName.seq (Parser.optional visibility)).seqLeft
      (Parser.optional (exactly .comma)))
      (fun form : ExportsFilesForm =>
        (form.files.written.seq (.optional (form.visibility.map VisibilityForm.written))).before
          (if form.comma then [.comma] else [])) := by
    intro cursor value next reads
    obtain ⟨pair, tail, rfl⟩ := (reads_map _ _ _ _ _ _).mp reads
    obtain ⟨form, spans, tree, surplus⟩ :=
      both.seq readsOnly_optionalComma cursor pair next tail
    have whole := congrArg Prod.fst tree
    have nothing := (List.append_eq_nil_iff.mp surplus).1
    exact ⟨⟨form.1.1, form.1.2, form.2⟩, spans, whole, nothing⟩
  have call := (inner.between .leftParen .rightParen).seqRight (readsOnly_keyword "exports_files")
  exact .rewrite (.mapAt (fun start (pair : ArrayOrName Nat × Option (ArrayOrName Nat)) =>
      ExportsFiles.mk pair.1 pair.2 (some start)) call)
    Prod.snd (fun _ => rfl)

theorem readsWritten_declaration (form : ArgumentForm) :
    ReadsWritten declaration form.declaration form.value.Admits :=
  .mapAt _ (readsWritten_argument form)

theorem readsOnly_declaration : ReadsOnly declaration ArgumentForm.declaration :=
  .mapAt (fun start (argument : Argument Nat) =>
    Declaration.mk argument.name argument.value (some start)) readsOnly_argument

/-- A name in front of anything but an equals sign declares nothing. -/
theorem refuses_declaration (cursor next : Cursor) (name : String)
    (spans : Spans cursor [.identifier name] next) (noEquals : next.rest.head? ≠ some .equals) :
    Refuses declaration cursor := by
  have reads : ReadsWritten identifierName (.name name) (fun _ => True) := readsWritten_name name
  have refuses : Refuses (exactly .equals) next := refuses_exactly .equals next noEquals
  exact refuses_mapAt _ _ _ (refuses_map _ _ _ (refuses_seq_first _ _ _ (refuses_map _ _ _
    (refuses_seq_second _ _ _ next name (reads cursor next spans trivial) refuses))))

/-! ## Statements -/

/-- A name that is not followed by what the call of a keyword needs. -/
theorem refuses_keywordCall {α : Type} (word name : String) (call : Parser α)
    (cursor next : Cursor) (spans : Spans cursor [.identifier name] next)
    (refuses : Refuses call next) : Refuses ((keyword word).seqRight call) cursor := by
  by_cases same : name = word
  · subst same
    have reads : ReadsWritten (keyword name) (.leaf (.identifier name) fun _ => ())
        (fun _ => True) := readsWritten_keyword name
    exact refuses_map _ _ _ (refuses_seq_second _ _ _ next () (reads cursor next spans trivial)
      refuses)
  · refine RefusesToken.seqRight call (refusesToken_keyword word ?_) cursor
      (congrArg List.head? spans.1)
    simpa using same

theorem refuses_ruleCall (recovery : Recovery) (name : String) (cursor next : Cursor)
    (spans : Spans cursor [.identifier name] next)
    (noParen : next.rest.head? ≠ some .leftParen) : Refuses (rule recovery) cursor := by
  refine refuses_mapAt _ _ _ ?_
  by_cases free : name ∈ callNames
  · have refuses : RefusesToken ruleName (.identifier name) := by
      apply refusesToken_ruleName
      intro text same
      cases same
      exact free
    exact refuses_seq_first _ _ _ (refuses cursor (congrArg List.head? spans.1))
  · have reads : ReadsWritten ruleName (.name name) (fun _ => True) :=
      readsWritten_ruleName name free
    exact refuses_seq_second _ _ _ next name (reads cursor next spans trivial)
      (refuses_argumentList recovery _ _ next noParen)

@[simp]
theorem refusesToken_package {lexeme : Token} (recovery : Recovery)
    (different : lexeme ≠ .identifier "package") : RefusesToken (package recovery) lexeme :=
  .mapAt _ (.seqRight _ (refusesToken_keyword _ different))

@[simp]
theorem refusesToken_packageGroup {lexeme : Token} (recovery : Recovery)
    (different : lexeme ≠ .identifier "package_group") :
    RefusesToken (packageGroup recovery) lexeme :=
  .mapAt _ (.seqRight _ (refusesToken_keyword _ different))

@[simp]
theorem refusesToken_exportsFiles {lexeme : Token}
    (different : lexeme ≠ .identifier "exports_files") : RefusesToken exportsFiles lexeme :=
  .mapAt _ (.seqRight _ (refusesToken_keyword _ different))

theorem readsWritten_statement (recovery : Recovery) (form : StatementForm) :
    ReadsWritten (statement recovery) form.written form.Admits := by
  match form with
  | .load form => exact .choose [] _ .load (.map _ (readsWritten_load form)) rfl (by simp)
  | .package form =>
    exact .choose [_] _ (.identifier "package") (.map _ (readsWritten_package recovery form)) rfl
      (by simp)
  | .packageGroup form =>
    exact .choose [_, _] _ (.identifier "package_group")
      (.map _ (readsWritten_packageGroup recovery form)) rfl (by simp)
  | .body (.exportsFiles form) =>
    exact .choose [_, _, _] _ (.identifier "exports_files")
      (.map _ (readsWritten_exportsFiles form)) rfl (by simp)
  | .body (.rule form) =>
    have free := form.free
    simp only [callNames, List.mem_cons, List.not_mem_nil, or_false, not_or] at free
    exact .choose [_, _, _, _] _ (.identifier form.kind) (.map _ (readsWritten_rule recovery form))
      rfl (by simp [free])
  | .body (.declaration form) =>
    refine .choice [_, _, _, _, _] [] (.map _ (readsWritten_declaration form)) ?_
    intro other member cursor next spans _
    -- The equals sign behind the name rules out every call.
    obtain ⟨middle, name, later⟩ := (spans_cons cursor next (.identifier form.name)
      (.equals :: form.value.written.tokens)).mp spans
    have noParen : middle.rest.head? ≠ some .leftParen := by
      rw [later.1]
      simp
    have noLoad : RefusesToken load (.identifier form.name) := refusesToken_load (by simp)
    simp only [List.mem_cons, List.not_mem_nil, or_false] at member
    rcases member with rfl | rfl | rfl | rfl | rfl
    · exact refuses_map _ _ _ (noLoad cursor (congrArg List.head? name.1))
    · exact refuses_map _ _ _ (refuses_mapAt _ _ _ (refuses_keywordCall _ _ _ _ _ name
        (refuses_argumentList recovery _ _ middle noParen)))
    · exact refuses_map _ _ _ (refuses_mapAt _ _ _ (refuses_keywordCall _ _ _ _ _ name
        (refuses_argumentList recovery _ _ middle noParen)))
    · exact refuses_map _ _ _ (refuses_mapAt _ _ _ (refuses_keywordCall _ _ _ _ _ name
        (refuses_between _ _ _ middle noParen)))
    · exact refuses_map _ _ _ (refuses_ruleCall recovery form.name cursor middle name noParen)

theorem readsOnly_statement (recovery : Recovery) :
    ReadsOnly (statement recovery) StatementForm.written := by
  refine readsOnly_choice _ ?_
  simp only [List.mem_cons, List.not_mem_nil, or_false, forall_eq_or_imp, forall_eq]
  exact ⟨.rewrite (.map _ readsOnly_load) .load (fun _ => rfl),
    .rewrite (.map _ (readsOnly_package recovery)) .package (fun _ => rfl),
    .rewrite (.map _ (readsOnly_packageGroup recovery)) .packageGroup (fun _ => rfl),
    .rewrite (.map _ readsOnly_exportsFiles) (fun form => .body (.exportsFiles form))
      (fun _ => rfl),
    .rewrite (.map _ (readsOnly_rule recovery)) (fun form => .body (.rule form)) (fun _ => rfl),
    .rewrite (.map _ readsOnly_declaration) (fun form => .body (.declaration form))
      (fun _ => rfl)⟩

end BuildLang.Parser
