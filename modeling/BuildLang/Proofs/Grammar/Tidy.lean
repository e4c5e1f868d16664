import BuildLang.Proofs.Grammar.Surplus

/-!
# Tidy derivations

A derivation becomes tidy by dropping the comma behind the last item of every list that
admits none, however deep it is nested.  What it is written with then lacks exactly the
surplus commas, and what it stands for changes in places only.
-/

set_option autoImplicit false

namespace BuildLang

open Written

/-! ## Dropping commas -/

def tidyArray (form : ListForm ElementForm) : ListForm ElementForm :=
  form.tidy (.rejected .array) id

def tidyPatterns (form : ListForm PhraseForm) : ListForm PhraseForm :=
  form.tidy (.rejected .array) id

def ArrayOrNameForm.tidy : ArrayOrNameForm → ArrayOrNameForm
  | .array form => .array (tidyArray form)
  | .identifier name => .identifier name

def GlobArgumentForm.tidy : GlobArgumentForm → GlobArgumentForm
  | .plain patterns => .plain (tidyPatterns patterns)
  | .named name patterns => .named name (tidyPatterns patterns)

def tidyGlob (form : ListForm GlobArgumentForm) : ListForm GlobArgumentForm :=
  form.tidy .allowed GlobArgumentForm.tidy

namespace ValueForm

mutual

def tidy : ValueForm → ValueForm
  | .string raw => .string raw
  | .number raw => .number raw
  | .boolean value => .boolean value
  | .array form => .array (tidyArray form)
  | .glob form => .glob (tidyGlob form)
  | .dict ⟨entries, comma⟩ => .dict ⟨tidyEntries entries, comma⟩
  | .select ⟨.dict ⟨entries, comma⟩, message⟩ =>
      .select ⟨.dict ⟨tidyEntries entries, comma⟩, message⟩
  | .select ⟨.identifier name, message⟩ => .select ⟨.identifier name, message⟩
  | .identifier name => .identifier name

def tidyEntries : List (EntryForm ValueForm) → List (EntryForm ValueForm)
  | [] => []
  | ⟨key, value⟩ :: rest => ⟨key, tidy value⟩ :: tidyEntries rest

end

end ValueForm

def LoadForm.tidy (form : LoadForm) : LoadForm :=
  ⟨form.label, form.symbols.tidy (.rejected .load) id⟩

def ArgumentForm.tidy (form : ArgumentForm) : ArgumentForm :=
  ⟨form.name, form.value.tidy⟩

def tidyArguments (form : ListForm ArgumentForm) : ListForm ArgumentForm :=
  form.tidy .allowed ArgumentForm.tidy

def RuleForm.tidy (form : RuleForm) : RuleForm :=
  ⟨form.kind, form.free, form.attributes.tidy (.rejected .rule) ArgumentForm.tidy⟩

def VisibilityForm.tidy (form : VisibilityForm) : VisibilityForm :=
  ⟨form.name, form.files.tidy⟩

def ExportsFilesForm.tidy (form : ExportsFilesForm) : ExportsFilesForm :=
  ⟨form.files.tidy, form.visibility.map VisibilityForm.tidy, form.comma⟩

def BodyForm.tidy : BodyForm → BodyForm
  | .rule form => .rule form.tidy
  | .declaration form => .declaration form.tidy
  | .exportsFiles form => .exportsFiles form.tidy

def StatementForm.tidy : StatementForm → StatementForm
  | .load form => .load form.tidy
  | .body form => .body form.tidy
  | .package form => .package (tidyArguments form)
  | .packageGroup form => .packageGroup (tidyArguments form)

namespace FileForm

def tidy (form : FileForm) : FileForm where
  loads := form.loads.map LoadForm.tidy
  body := form.body.map BodyForm.tidy
  package := form.package.map tidyArguments
  packageGroup := form.packageGroup.map tidyArguments

theorem statements_tidy (form : FileForm) :
    form.tidy.statements = form.statements.map StatementForm.tidy := by
  obtain ⟨loads, body, package, packageGroup⟩ := form
  cases package <;> cases packageGroup <;>
    simp [statements, tidy, StatementForm.tidy, Function.comp_def]

end FileForm

/-! ## Values -/

theorem tidies_name (text : String) (after : List Token) :
    (Written.name text).Tidies (Written.name text) after id :=
  .leaf _ fun _ _ => rfl

theorem tidies_string (raw : String) (after : List Token) :
    (Written.string raw).Tidies (Written.string raw) after StringLiteral.bare :=
  .leaf _ fun _ _ => rfl

theorem tidies_identifier (text : String) (after : List Token) :
    (Written.identifier text).Tidies (Written.identifier text) after Identifier.bare :=
  .leaf _ fun _ _ => rfl

theorem PhraseForm.tidies (form : PhraseForm) :
    form.written.Tidies form.written [] Phrase.bare := by
  cases form with
  | string raw => exact .leaf _ fun _ _ => rfl
  | identifier name => exact .leaf _ fun _ _ => rfl

theorem ElementForm.tidies (form : ElementForm) :
    form.written.Tidies form.written [] Element.bare := by
  cases form with
  | string raw => exact .leaf _ fun _ _ => rfl
  | number raw => exact .leaf _ fun _ _ => rfl
  | boolean value => exact .leaf _ fun _ _ => rfl
  | identifier name => exact .leaf _ fun _ _ => rfl

theorem array_tidies (form : ListForm ElementForm) :
    (Written.array form).Tidies (Written.array (tidyArray form)) [] ArrayLiteral.bare := by
  have elements := form.tidies (.rejected .array) .rightBracket ElementForm.written id
    Element.bare (by rintro _ ⟨⟩; rfl) fun item _ => item.tidies
  refine (elements.between .leftBracket .rightBracket).mapAt ?_
  intro start stop first second same
  exact congrArg (fun elements => ArrayLiteral.mk elements none) same

theorem ArrayOrNameForm.tidies (form : ArrayOrNameForm) :
    form.written.Tidies form.tidy.written [] ArrayOrName.bare := by
  cases form with
  | array form => exact (array_tidies form).map fun _ _ same => congrArg ArrayOrName.array same
  | identifier name => exact .leaf _ fun _ _ => rfl

theorem patterns_tidies (form : ListForm PhraseForm) :
    (Written.patterns form).Tidies (Written.patterns (tidyPatterns form)) []
      (List.map Phrase.bare) :=
  (form.tidies (.rejected .array) .rightBracket PhraseForm.written id Phrase.bare
    (by rintro _ ⟨⟩; rfl) fun item _ => item.tidies).between _ _

theorem GlobArgument.bare_named {π : Type} (name : String) (patterns : List (Phrase π)) :
    (GlobArgument.named name patterns).bare = .named name (patterns.map Phrase.bare) := by
  unfold named
  split
  · rfl
  · rfl

theorem GlobArgumentForm.tidies (form : GlobArgumentForm) :
    form.written.Tidies form.tidy.written [] GlobArgument.bare := by
  cases form with
  | plain patterns =>
    exact (patterns_tidies patterns).map fun _ _ same => congrArg GlobArgument.includes same
  | named name patterns =>
    have pair := ((tidies_name name []).before [.equals] List.nil_prefix).seq
      (patterns_tidies patterns) List.nil_prefix
    refine pair.map ?_
    rintro ⟨name, first⟩ ⟨other, second⟩ same
    obtain ⟨rfl, alike⟩ := Prod.mk.inj same
    dsimp only at alike ⊢
    rw [GlobArgument.bare_named, GlobArgument.bare_named, alike]
    rfl

theorem glob_tidies (form : ListForm GlobArgumentForm) :
    (Written.glob form).Tidies (Written.glob (tidyGlob form)) [] Glob.bare := by
  have arguments := form.tidies .allowed .rightParen GlobArgumentForm.written
    GlobArgumentForm.tidy GlobArgument.bare (by rintro _ ⟨⟩) fun item _ => item.tidies
  refine ((arguments.between .leftParen .rightParen).behind [.glob]).mapAt ?_
  intro start stop first second same
  rw [Glob.bare_ofArguments, Glob.bare_ofArguments, same]

theorem entry_tidies (key : String) {value tidy : Written (Value Nat)}
    (tidies : value.Tidies tidy [] Value.bare) :
    (Written.entry key value).Tidies (Written.entry key tidy) [] Entry.bare := by
  have pair := ((tidies_string key []).before [.colon] List.nil_prefix).seq tidies List.nil_prefix
  refine pair.map ?_
  intro first second same
  exact congrArg (fun pair : StringLiteral Empty × Value Empty => Entry.mk pair.1 pair.2) same

theorem dict_tidies (comma : Bool) {entries tidied : List (Written (Entry Nat (Value Nat)))}
    (each : List.Forall₂ (fun entry tidy => entry.Tidies tidy [] Entry.bare) entries tidied) :
    (Written.dict entries comma).Tidies (Written.dict tidied comma) [] Dict.bare := by
  have row := Tidies.list .allowed comma .rightBrace (by rintro _ ⟨⟩) each
  refine (row.between .leftBrace .rightBrace).mapAt ?_
  intro start stop first second same
  exact congrArg (fun entries => Dict.mk entries none) same

theorem select_tidies (message : Option PhraseForm)
    {constraint tidy : Written (Constraint Nat (Value Nat))}
    (tidies : constraint.Tidies tidy [] Constraint.bare) :
    (Written.select constraint message).Tidies (Written.select tidy message) [] Select.bare := by
  have phrase : (Written.optional (message.map Written.message)).Tidies
      (Written.optional (message.map Written.message)) [.rightParen] (Option.map Phrase.bare) := by
    have each := Tidies.optional Written.message id message
      fun item _ => (item.tidies.behind _).extend [.rightParen]
    rwa [Option.map_id_fun, id_eq] at each
  have arguments := tidies.seq phrase List.nil_prefix
  refine ((arguments.between .leftParen .rightParen).behind [.identifier "select"]).mapAt ?_
  intro start stop first second same
  exact congrArg (fun pair : Constraint Empty (Value Empty) × Option (Phrase Empty) =>
    Select.mk pair.1 pair.2 none) same

namespace ValueForm

mutual

theorem tidies : ∀ form : ValueForm, form.written.Tidies form.tidy.written [] Value.bare
  | .string raw => .leaf _ fun _ _ => rfl
  | .number raw => .leaf _ fun _ _ => rfl
  | .boolean value => .leaf _ fun _ _ => rfl
  | .identifier name => .leaf _ fun _ _ => rfl
  | .array form => (array_tidies form).map fun _ _ same => congrArg Value.array same
  | .glob form => (glob_tidies form).map fun _ _ same => congrArg Value.glob same
  | .dict ⟨entries, comma⟩ => by
      rw [tidy, written, written]
      refine (dict_tidies comma (entries_tidy entries)).map ?_
      intro first second same
      rw [Value.bare_dict, Value.bare_dict, same]
  | .select ⟨.dict ⟨entries, comma⟩, message⟩ => by
      rw [tidy, written, written]
      have constraint := (dict_tidies comma (entries_tidy entries)).map
        (f := Constraint.dict) (g := Constraint.bare)
        fun _ _ same => congrArg Constraint.dict same
      refine (select_tidies message constraint).map ?_
      intro first second same
      rw [Value.bare_select, Value.bare_select, same]
  | .select ⟨.identifier name, message⟩ => by
      rw [tidy, written]
      have constraint := (tidies_identifier name []).map
        (f := Constraint.identifier) (g := Constraint.bare)
        fun _ _ same => congrArg Constraint.identifier same
      refine (select_tidies message constraint).map ?_
      intro first second same
      rw [Value.bare_select, Value.bare_select, same]

theorem entries_tidy : ∀ entries : List (EntryForm ValueForm),
    List.Forall₂ (fun entry tidy => entry.Tidies tidy [] Entry.bare) (entriesWritten entries)
      (entriesWritten (tidyEntries entries))
  | [] => by
      rw [tidyEntries, entriesWritten]
      exact .nil
  | ⟨key, value⟩ :: rest => by
      rw [tidyEntries, entriesWritten, entriesWritten]
      exact .cons (entry_tidies key (tidies value)) (entries_tidy rest)

end

end ValueForm

/-! ## Statements -/

theorem SymbolForm.tidies (form : SymbolForm) :
    form.written.Tidies form.written [] LoadedSymbol.bare := by
  cases form with
  | plain raw => exact .leaf _ fun _ _ => rfl
  | renamed name raw =>
    have pair := ((tidies_name name []).before [.equals] List.nil_prefix).seq
      (tidies_string raw []) List.nil_prefix
    refine pair.mapAt (f := fun start (pair : String × StringLiteral Nat) =>
      LoadedSymbol.renamed pair.1 pair.2.value (some start)) ?_
    rintro start stop ⟨name, first⟩ ⟨other, second⟩ same
    obtain ⟨rfl, alike⟩ := Prod.mk.inj same
    exact congrArg (fun literal : StringLiteral Empty =>
      LoadedSymbol.renamed name literal.value none) alike

theorem LoadForm.tidies (form : LoadForm) :
    form.written.Tidies form.tidy.written [] Load.bare := by
  have symbols := form.symbols.tidies (.rejected .load) .rightParen SymbolForm.written id
    LoadedSymbol.bare (by rintro _ ⟨⟩; rfl) fun item _ => item.tidies
  have label : ((Written.string form.label).before [.comma]).Tidies _ [] StringLiteral.bare :=
    (tidies_string form.label []).before [.comma] List.nil_prefix
  have arguments := label.seq symbols List.nil_prefix
  refine ((arguments.between .leftParen .rightParen).behind [.load]).mapAt ?_
  intro start stop first second same
  exact congrArg (fun pair : StringLiteral Empty × List (LoadedSymbol Empty) =>
    Load.mk pair.1.value pair.2 none) same

namespace ArgumentForm

theorem tidies (form : ArgumentForm) :
    form.written.Tidies form.tidy.written [] Argument.bare := by
  have pair := ((tidies_name form.name []).before [.equals] List.nil_prefix).seq
    form.value.tidies List.nil_prefix
  refine pair.map ?_
  intro first second same
  exact congrArg (fun pair : String × Value Empty => Argument.mk pair.1 pair.2) same

theorem ruleAttribute_tidies (form : ArgumentForm) :
    form.ruleAttribute.Tidies form.tidy.ruleAttribute [] Attribute.bare := by
  refine form.tidies.mapAt ?_
  intro start stop first second same
  exact congrArg (fun argument : Argument Empty =>
    Attribute.mk argument.name argument.value none) same

theorem declaration_tidies (form : ArgumentForm) :
    form.declaration.Tidies form.tidy.declaration [] Declaration.bare := by
  refine form.tidies.mapAt ?_
  intro start stop first second same
  exact congrArg (fun argument : Argument Empty =>
    Declaration.mk argument.name argument.value none) same

end ArgumentForm

theorem RuleForm.tidies (form : RuleForm) :
    form.written.Tidies form.tidy.written [] Rule.bare := by
  have attributes := form.attributes.tidies (.rejected .rule) .rightParen
    ArgumentForm.ruleAttribute ArgumentForm.tidy Attribute.bare (by rintro _ ⟨⟩; rfl)
    fun item _ => item.ruleAttribute_tidies
  refine ((tidies_name form.kind []).seq (attributes.between .leftParen .rightParen)
    List.nil_prefix).mapAt ?_
  intro start stop first second same
  exact congrArg (fun pair : String × List (Attribute Empty) => Rule.mk pair.1 pair.2 none) same

theorem arguments_tidies (form : ListForm ArgumentForm) :
    (Written.arguments form).Tidies (Written.arguments (tidyArguments form)) []
      (List.map Argument.bare) :=
  (form.tidies .allowed .rightParen ArgumentForm.written ArgumentForm.tidy Argument.bare
    (by rintro _ ⟨⟩) fun item _ => item.tidies).between _ _

theorem package_tidies (form : ListForm ArgumentForm) :
    (Written.package form).Tidies (Written.package (tidyArguments form)) [] Package.bare := by
  refine ((arguments_tidies form).behind _).mapAt ?_
  intro start stop first second same
  exact Package.bare_carries.ofArguments_congr Package.bare_carries rfl same

theorem packageGroup_tidies (form : ListForm ArgumentForm) :
    (Written.packageGroup form).Tidies (Written.packageGroup (tidyArguments form)) []
      PackageGroup.bare := by
  refine ((arguments_tidies form).behind _).mapAt ?_
  intro start stop first second same
  exact PackageGroup.bare_carries.ofArguments_congr PackageGroup.bare_carries rfl same

theorem ExportsFilesForm.tidies (form : ExportsFilesForm) :
    form.written.Tidies form.tidy.written [] ExportsFiles.bare := by
  have visibility := Tidies.optional VisibilityForm.written VisibilityForm.tidy form.visibility
    fun item _ => item.files.tidies.behind [.comma, .identifier item.name, .equals]
  have files := form.files.tidies.seq visibility List.nil_prefix
  have closes : ([] : List Token) <+: (if form.comma then [.comma] else []) ++ [.rightParen] :=
    List.nil_prefix
  have arguments := files.before _ closes
  refine ((arguments.between .leftParen .rightParen).behind [.identifier "exports_files"]).mapAt ?_
  intro start stop first second same
  exact congrArg (fun pair : ArrayOrName Empty × Option (ArrayOrName Empty) =>
    ExportsFiles.mk pair.1 pair.2 none) same

theorem StatementForm.tidies (form : StatementForm) :
    form.written.Tidies form.tidy.written [] Statement.bare := by
  cases form with
  | load form => exact form.tidies.map fun _ _ same => congrArg Statement.load same
  | body form =>
    cases form with
    | rule form => exact form.tidies.map fun _ _ same => congrArg Statement.rule same
    | declaration form =>
      exact form.declaration_tidies.map fun _ _ same => congrArg Statement.declaration same
    | exportsFiles form =>
      exact form.tidies.map fun _ _ same => congrArg Statement.exportsFiles same
  | package form =>
    exact (package_tidies form).map fun _ _ same => congrArg Statement.package same
  | packageGroup form =>
    exact (packageGroup_tidies form).map fun _ _ same => congrArg Statement.packageGroup same

/-- A file without its surplus commas is the tidy file. -/
theorem FileForm.tidies (form : FileForm) :
    form.written.Tidies form.tidy.written [] BuildFile.bare := by
  have statements : (Written.many (form.statements.map StatementForm.written)).Tidies
      (Written.many (form.tidy.statements.map StatementForm.written)) []
      (List.map Statement.bare) := by
    refine Tidies.many ?_
    rw [statements_tidy, List.map_map, List.forall₂_map_left_iff, List.forall₂_map_right_iff,
      List.forall₂_same]
    exact fun item _ => item.tidies
  refine statements.map ?_
  intro first second same
  rw [BuildFile.bare_ofStatements, BuildFile.bare_ofStatements, same]

end BuildLang
