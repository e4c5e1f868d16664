import BuildLang.Proofs.Layout.Emitter
import BuildLang.Proofs.Layout.Values
import BuildLang.Proofs.Tree.CanonicalFile

/-!
# Texts of files

The printed text of a well-formed file spells the tokens of its canonical
derivation, under any indentation that is made of blanks.
-/

set_option autoImplicit false

namespace BuildLang

variable {π : Type}

open Written

/-! ## Loads -/

theorem LoadedSymbol.spells (symbol : LoadedSymbol π) (legal : symbol.WellFormed) :
    Spells symbol.text.toList symbol.form.written.tokens := by
  cases symbol with
  | plain symbol position => exact spells_token (.string (quoted symbol)) (quoted_legal _ legal)
  | renamed name symbol position =>
    have loaded : Spells (quoted symbol).toList [.string (quoted symbol)] :=
      spells_token (.string (quoted symbol)) (quoted_legal _ legal.2)
    have bound := leads_binding name legal.1 _ _ loaded
    simpa [text, form, SymbolForm.written, Written.name, Written.string] using bound

theorem Load.spells (load : Load π) (legal : load.WellFormed) :
    Spells load.text.toList load.sorted.form.written.tokens := by
  have symbols : Spells (", ".intercalate (load.sortedSymbols.map LoadedSymbol.text)).toList
      (load.sorted.form.symbols.written (.rejected .load) SymbolForm.written).tokens := by
    refine spells_items (.rejected .load) load.sortedSymbols LoadedSymbol.text ?_
    intro symbol member
    exact symbol.spells (legal.symbols symbol (List.mem_mergeSort.mp member))
  have word : Spells "load".toList [.load] := spells_token .load trivial
  have opened : Leads "load(".toList [.load, .leftParen] :=
    word.leads_mark '(' .leftParen rfl trivial rfl rfl
  have label : Leads (quoted load.source).toList [.string (quoted load.source)] :=
    leads_token (.string (quoted load.source)) (quoted_legal _ legal.source) rfl
  have front : Leads ("load(" ++ quoted load.source ++ ", ").toList
      [.load, .leftParen, .string (quoted load.source), .comma] := by
    simpa using (opened.append label).append leads_gap
  have whole := symbols.enclosed _ ")" _ _ front clear_paren spells_paren
  simpa [LoadForm.written, Written.string, form, sorted, text] using whole

/-! ## Bindings and calls -/

theorem spells_layoutBinding (name : String) (value : Value π) (ending : String)
    (back : List Token) (legalName : (Token.identifier name).Legal) (legal : value.WellFormed)
    (clear : Pattern.Clear Pattern.isJoining ending.toList)
    (closed : Spells ending.toList back) :
    SpellsLines (layoutBinding name value ending)
      ((ArgumentForm.mk name value.form).written.tokens ++ back) := by
  have whole := (value.spells_layout legal).enclosed _ ending _ _
    (leads_binding name legalName) clear closed
  simpa [layoutBinding, ArgumentForm.written, Written.name] using whole

theorem spells_lastBinding (name : String) (value : Value π)
    (legalName : (Token.identifier name).Legal) (legal : value.WellFormed) :
    SpellsLines (layoutBinding name value "") (ArgumentForm.mk name value.form).written.tokens := by
  have whole := spells_layoutBinding name value "" [] legalName legal (Pattern.clear_nil _) .nil
  rwa [List.append_nil] at whole

theorem spells_binding (name : String) (value : Value π)
    (legalName : (Token.identifier name).Legal) (legal : value.WellFormed) :
    SpellsLines (layoutBinding name value ",")
      ((ArgumentForm.mk name value.form).written.tokens ++ [.comma]) :=
  spells_layoutBinding name value "," [.comma] legalName legal clear_comma
    (spells_token .comma trivial)

theorem Declaration.spells_layout (declaration : Declaration π) (legal : declaration.WellFormed) :
    SpellsLines declaration.layout declaration.form.declaration.tokens :=
  spells_lastBinding declaration.name declaration.value legal.name legal.value

theorem Rule.spells_attributes (attributes : List (Attribute π))
    (legal : ∀ argument ∈ attributes, argument.WellFormed) :
    SpellsLines (Rule.layoutAttributes attributes)
      (itemTokens (attributes.map fun argument => argument.form.ruleAttribute)) := by
  induction attributes with
  | nil => exact .nil
  | cons argument others ih =>
    have first := legal argument (by simp)
    have rest := ih (fun later member => legal later (by simp [member]))
    cases others with
    | nil =>
      rw [layoutAttributes, List.map_singleton, itemTokens, List.flatMap_nil, List.append_nil]
      exact spells_lastBinding argument.name argument.value first.name first.value
    | cons next later =>
      have bound := (spells_binding argument.name argument.value first.name first.value).append rest
      rw [List.append_assoc] at bound
      rw [layoutAttributes, List.map_cons, List.map_cons, itemTokens_cons_cons]
      · exact bound
      · simp

theorem Rule.spells_layout (rule : Rule π) (legal : rule.WellFormed)
    (free : rule.kind ∉ callNames) :
    SpellsLines rule.layout (rule.form free).written.tokens := by
  have attributes : SpellsLines (layoutAttributes rule.attributes)
      ((rule.form free).attributes.written (.rejected .rule) ArgumentForm.ruleAttribute).tokens := by
    rw [form, tokens_unended, List.map_map]
    exact spells_attributes rule.attributes legal.attributes
  have whole := attributes.block _ ")" _ _ (leads_call rule.kind legal.kind) spells_paren
  simpa [layout, RuleForm.written, Written.name, form] using whole

theorem spells_layoutCall (name : String) (arguments : List (Argument π))
    (legalName : (Token.identifier name).Legal)
    (legal : ∀ argument ∈ arguments, argument.WellFormed) :
    SpellsLines (layoutCall name arguments)
      ((Written.arguments ⟨arguments.map Argument.form, true⟩).behind [.identifier name]).tokens := by
  have bindings : SpellsLines
      (arguments.flatMap fun argument => layoutBinding argument.name argument.value ",")
      ((ListForm.mk (arguments.map Argument.form) true).written .allowed
        ArgumentForm.written).tokens := by
    rw [tokens_ended, List.flatMap_map]
    refine .flatMap _ _ _ ?_
    intro argument member
    have each := legal argument member
    exact spells_binding argument.name argument.value each.name each.value
  exact bindings.block _ ")" _ _ (leads_call name legalName) spells_paren

theorem Slots.entries_wellFormed {κ : Type} [DecidableEq κ] {ν : Type → Type} (slots : Slots κ ν)
    (names : ∀ slot, (Token.identifier (slots.key slot)).Legal) (node : ν π)
    (legal : ∀ slot, ∀ value ∈ slots.get node slot, Value.WellFormed value) :
    ∀ argument ∈ slots.entries node, Argument.WellFormed argument := by
  rintro ⟨name, value⟩ member
  obtain ⟨slot, rfl, held⟩ := (slots.mem_entries node _).mp member
  exact ⟨names slot, legal slot value held⟩

theorem Package.entries_wellFormed (package : Package π) (legal : package.WellFormed) :
    ∀ argument ∈ package.entries, Argument.WellFormed argument :=
  slots.entries_wellFormed (fun slot => by cases slot <;> decide) package legal

theorem PackageGroup.entries_wellFormed (group : PackageGroup π) (legal : group.WellFormed) :
    ∀ argument ∈ group.entries, Argument.WellFormed argument :=
  slots.entries_wellFormed (fun slot => by cases slot <;> decide) group legal

theorem Package.spells_layout (package : Package π) (legal : package.WellFormed) :
    SpellsLines (layoutCall "package" package.entries) (Written.package package.form).tokens :=
  spells_layoutCall "package" package.entries (by decide) (package.entries_wellFormed legal)

theorem PackageGroup.spells_layout (group : PackageGroup π) (legal : group.WellFormed) :
    SpellsLines (layoutCall "package_group" group.entries)
      (Written.packageGroup group.form).tokens :=
  spells_layoutCall "package_group" group.entries (by decide) (group.entries_wellFormed legal)

theorem ExportsFiles.spells_layout (exports : ExportsFiles π) (legal : exports.WellFormed) :
    SpellsLines exports.layout exports.form.written.tokens := by
  have name : (Token.identifier "exports_files").Legal := by decide
  have opened := leads_call "exports_files" name
  have files := exports.files.spells legal.files
  refine .single _ _ ?_
  cases given : exports.visibility with
  | none =>
    have whole := files.enclosed _ ")" _ _ opened clear_paren spells_paren
    simpa [ExportsFilesForm.written, form, given, Written.optional] using whole
  | some value =>
    have visibility : (Token.identifier "visibility").Legal := by decide
    have bound : Leads ", visibility = ".toList [.comma, .identifier "visibility", .equals] := by
      simpa using leads_gap.append (leads_binding "visibility" visibility)
    have closed := (value.spells (legal.visibility value given)).enclosed _ ")" _ _ bound
      clear_paren spells_paren
    have clear : Pattern.Clear Pattern.isJoining
        (", visibility = " ++ value.text ++ ")").toList := by
      simp [Pattern.clear_cons, Pattern.isJoining, Pattern.isWordPart, Pattern.isWordStart,
        Pattern.isDigit]
    have whole := files.enclosed _ _ _ _ opened clear closed
    simpa [ExportsFilesForm.written, form, given, Written.optional, VisibilityForm.written,
      String.append_assoc] using whole

/-! ## Files -/

theorem tokens_many {α : Type} (items : List (Written α)) :
    (Written.many items).tokens = items.flatMap Written.tokens := by
  induction items with
  | nil => rfl
  | cons item others ih =>
    rw [List.flatMap_cons, ← ih]
    rfl

namespace BuildFile

variable (file : BuildFile π) (free : ∀ rule ∈ file.rules, rule.kind ∉ callNames)

/-- The sections of a file, each with the tokens it spells. -/
def writtenSections : List (List Line × List Token) :=
  [(file.layoutLoads, file.sortedLoads.flatMap fun load => load.sorted.form.written.tokens),
    (file.declarations.flatMap Declaration.layout,
      file.declarations.flatMap fun declaration => declaration.form.declaration.tokens)] ++
    file.exportsFiles.toList.map (fun exports => (exports.layout, exports.form.written.tokens)) ++
    file.rules.pmap (fun rule free => (rule.layout, (rule.form free).written.tokens)) free ++
    file.package.toList.map (fun package =>
      (layoutCall "package" package.entries, (Written.package package.form).tokens)) ++
    file.packageGroup.toList.map (fun group =>
      (layoutCall "package_group" group.entries, (Written.packageGroup group.form).tokens))

theorem writtenSections_lines :
    (file.writtenSections free).map Prod.fst = file.layoutSections := by
  simp [writtenSections, layoutSections, Function.comp_def, List.map_pmap, Option.toList_map]

theorem writtenSections_tokens :
    (file.writtenSections free).flatMap Prod.snd = (file.form free).written.tokens := by
  rw [FileForm.written, tokens_map, tokens_many, ← canonicalStatements_forms]
  simp [writtenSections, canonicalStatements, List.flatMap_def, StatementForm.written, sorted,
    List.map_pmap, Function.comp_def]

theorem writtenSections_spell (legal : file.WellFormed) :
    ∀ part ∈ file.writtenSections free, SpellsLines part.1 part.2 := by
  intro part member
  simp only [writtenSections, List.mem_append, List.mem_map, List.mem_pmap, Option.mem_toList,
    List.mem_cons, List.not_mem_nil, or_false] at member
  rcases member with ((((rfl | rfl) | ⟨exports, given, rfl⟩) | ⟨rule, member, rfl⟩) |
    ⟨package, given, rfl⟩) | ⟨group, given, rfl⟩
  · refine .flatMap _ _ _ ?_
    intro load member
    exact .single _ _ (load.spells (legal.loads load (List.mem_mergeSort.mp member)))
  · refine .flatMap _ _ _ ?_
    intro declaration member
    exact declaration.spells_layout (legal.declarations declaration member)
  · exact exports.spells_layout (legal.exportsFiles exports given)
  · exact rule.spells_layout (legal.rules rule member) _
  · exact package.spells_layout (legal.package package given)
  · exact group.spells_layout (legal.packageGroup group given)

/-- The printed text of a well-formed file spells its canonical derivation. -/
theorem spells_print (legal : file.WellFormed) (indent : String)
    (blank : ∀ c ∈ indent.toList, Pattern.isBlank c = true) :
    Spells (file.print ⟨.all, indent⟩).toList (file.form free).written.tokens := by
  have sections := SpellsLines.sections _ (file.writtenSections_spell free legal)
  rw [writtenSections_lines, writtenSections_tokens] at sections
  rw [print_eq]
  exact sections.renderAll indent blank

end BuildFile

end BuildLang
