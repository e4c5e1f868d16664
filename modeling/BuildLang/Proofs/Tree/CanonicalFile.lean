import BuildLang.Proofs.Tree.Canonical
import BuildLang.Proofs.Tree.Slots
import BuildLang.Proofs.Tree.WellFormed

/-!
# Canonical derivations of files

Declarations stand before exported files and these before rules, so that a file
has one shape whatever order its parts came in.
-/

set_option autoImplicit false

namespace BuildLang

variable {π : Type}

open Written

/-! ## Loads -/

def LoadedSymbol.form : LoadedSymbol π → SymbolForm
  | .plain symbol _ => .plain (quoted symbol)
  | .renamed name symbol _ => .renamed name (quoted symbol)

def Load.form (load : Load π) : LoadForm :=
  ⟨quoted load.source, load.symbols.map LoadedSymbol.form, false⟩

theorem LoadedSymbol.stands (symbol : LoadedSymbol π) :
    symbol.form.written.Stands LoadedSymbol.bare symbol.bare := by
  cases symbol with
  | plain symbol position =>
    exact ⟨fun _ => rfl, fun _ => congrArg (LoadedSymbol.plain · none) (unquoted_quoted symbol)⟩
  | renamed name symbol position =>
    exact ⟨fun _ => rfl,
      fun _ => congrArg (LoadedSymbol.renamed name · none) (unquoted_quoted symbol)⟩

theorem Load.stands (load : Load π) : load.form.written.Stands Load.bare load.bare := by
  have symbols : (load.form.symbols.written (.rejected .load) SymbolForm.written).Stands
      (List.map LoadedSymbol.bare) (load.symbols.map LoadedSymbol.bare) :=
    .list _ load.symbols false (by simp) (fun symbol _ => symbol.stands)
  have label := (stands_string (quoted load.source)).before [.comma]
  refine (((label.seq symbols).between _ _).behind _).mapAt ?_
  rintro start ⟨literal, inner⟩ same
  obtain ⟨literalSame, innerSame⟩ := Prod.mk.inj same
  have raw : literal.raw = quoted load.source := congrArg StringLiteral.raw literalSame
  have source : literal.value = load.source := by
    rw [StringLiteral.value, raw, unquoted_quoted]
  dsimp only at innerSame
  simp only [Load.bare, source, innerSame]

/-! ## Arguments -/

def Argument.form (argument : Argument π) : ArgumentForm :=
  ⟨argument.name, argument.value.form⟩

def Attribute.form (argument : Attribute π) : ArgumentForm :=
  ⟨argument.name, argument.value.form⟩

def Declaration.form (declaration : Declaration π) : ArgumentForm :=
  ⟨declaration.name, declaration.value.form⟩

theorem stands_argument (name : String) (value : Value π) :
    (ArgumentForm.mk name value.form).written.Stands Argument.bare ⟨name, value.bare⟩ := by
  have pair := ((stands_name name).before [.equals]).seq value.stands
  refine pair.map (f := fun pair : String × Value Nat => Argument.mk pair.1 pair.2) ?_
  intro inner same
  exact congrArg (fun pair : String × Value Empty => Argument.mk pair.1 pair.2) same

theorem Attribute.stands (argument : Attribute π) :
    argument.form.ruleAttribute.Stands Attribute.bare argument.bare := by
  refine (stands_argument argument.name argument.value).mapAt ?_
  intro start inner same
  exact congrArg (fun argument : Argument Empty =>
    Attribute.mk argument.name argument.value none) same

theorem Declaration.stands (declaration : Declaration π) :
    declaration.form.declaration.Stands Declaration.bare declaration.bare := by
  refine (stands_argument declaration.name declaration.value).mapAt ?_
  intro start inner same
  exact congrArg (fun argument : Argument Empty =>
    Declaration.mk argument.name argument.value none) same

theorem stands_arguments (arguments : List (Argument π)) :
    (Written.arguments ⟨arguments.map Argument.form, true⟩).Stands (List.map Argument.bare)
      (arguments.map Argument.bare) :=
  (Stands.list .allowed arguments true (fun _ => rfl)
    (fun argument _ => stands_argument argument.name argument.value)).between _ _

/-! ## Calls -/

def Rule.form (rule : Rule π) (free : rule.kind ∉ callNames) : RuleForm :=
  ⟨rule.kind, free, rule.attributes.map Attribute.form, false⟩

theorem Rule.stands (rule : Rule π) (free : rule.kind ∉ callNames) :
    (rule.form free).written.Stands Rule.bare rule.bare := by
  have attributes : ((rule.form free).attributes.written (.rejected .rule)
      ArgumentForm.ruleAttribute).Stands (List.map Attribute.bare)
      (rule.attributes.map Attribute.bare) :=
    .list _ rule.attributes false (by simp) (fun argument _ => argument.stands)
  refine ((stands_name rule.kind).seq (attributes.between .leftParen .rightParen)).mapAt
    (f := fun start (pair : String × List (Attribute Nat)) =>
      Rule.mk pair.1 pair.2 (some start)) ?_
  intro start inner same
  exact congrArg (fun pair : String × List (Attribute Empty) => Rule.mk pair.1 pair.2 none) same

def Package.form (package : Package π) : ListForm ArgumentForm :=
  ⟨package.entries.map Argument.form, true⟩

def PackageGroup.form (group : PackageGroup π) : ListForm ArgumentForm :=
  ⟨group.entries.map Argument.form, true⟩

theorem Package.stands (package : Package π) :
    (Written.package package.form).Stands bare package.bare := by
  refine ((stands_arguments package.entries).behind _).mapAt ?_
  intro start inner same
  have filled : (ofArguments (some start) inner).bare =
      (ofArguments package.position package.entries).bare :=
    bare_carries.ofArguments_congr bare_carries rfl same
  exact filled.trans (congrArg bare (slots.ofArguments_entries package))

theorem PackageGroup.stands (group : PackageGroup π) :
    (Written.packageGroup group.form).Stands bare group.bare := by
  refine ((stands_arguments group.entries).behind _).mapAt ?_
  intro start inner same
  have filled : (ofArguments (some start) inner).bare =
      (ofArguments group.position group.entries).bare :=
    bare_carries.ofArguments_congr bare_carries rfl same
  exact filled.trans (congrArg bare (slots.ofArguments_entries group))

def ExportsFiles.form (exports : ExportsFiles π) : ExportsFilesForm :=
  ⟨exports.files.form, exports.visibility.map fun value => ⟨"visibility", value.form⟩, false⟩

theorem ExportsFiles.stands (exports : ExportsFiles π) :
    exports.form.written.Stands ExportsFiles.bare exports.bare := by
  have visibility : (Written.optional (exports.form.visibility.map VisibilityForm.written)).Stands
      (Option.map ArrayOrName.bare) (exports.visibility.map ArrayOrName.bare) := by
    rw [form, Option.map_map]
    exact .optional exports.visibility fun value _ => value.stands.behind _
  have call := (((exports.files.stands.seq visibility).before []).between
    .leftParen .rightParen).behind [.identifier "exports_files"]
  refine call.mapAt (f := fun start (pair : ArrayOrName Nat × Option (ArrayOrName Nat)) =>
    ExportsFiles.mk pair.1 pair.2 (some start)) ?_
  intro start inner same
  exact congrArg (fun pair : ArrayOrName Empty × Option (ArrayOrName Empty) =>
    ExportsFiles.mk pair.1 pair.2 none) same

/-! ## Files -/

theorem filterMap_bare {α β : Type} (read : Statement π → Option α)
    (bareRead : Statement Empty → Option β) (bare : α → β)
    (same : ∀ statement, bareRead (Statement.bare statement) = (read statement).map bare)
    (statements : List (Statement π)) :
    (statements.map Statement.bare).filterMap bareRead =
      (statements.filterMap read).map bare := by
  rw [List.filterMap_map, List.map_filterMap]
  exact congrArg (List.filterMap · statements) (funext same)

namespace BuildFile

theorem bare_ofStatements (statements : List (Statement π)) :
    (ofStatements statements).bare = ofStatements (statements.map Statement.bare) := by
  simp only [ofStatements, bare, ← List.getLast?_map]
  congr 1
  · exact (filterMap_bare _ _ _ (fun statement => by cases statement <;> rfl) statements).symm
  · exact (filterMap_bare _ _ _ (fun statement => by cases statement <;> rfl) statements).symm
  · exact (filterMap_bare _ _ _ (fun statement => by cases statement <;> rfl) statements).symm
  · exact congrArg List.getLast?
      (filterMap_bare _ _ _ (fun statement => by cases statement <;> rfl) statements).symm
  · exact congrArg List.getLast?
      (filterMap_bare _ _ _ (fun statement => by cases statement <;> rfl) statements).symm
  · exact congrArg List.getLast?
      (filterMap_bare _ _ _ (fun statement => by cases statement <;> rfl) statements).symm

variable (file : BuildFile π) (free : ∀ rule ∈ file.rules, rule.kind ∉ callNames)

/-- The derivation that the printer follows. -/
def form : FileForm where
  loads := file.sorted.loads.map Load.form
  body := file.declarations.map (fun declaration => .declaration declaration.form) ++
    (file.exportsFiles.map fun exports => .exportsFiles exports.form).toList ++
    file.rules.pmap (fun rule free => .rule (rule.form free)) free
  package := file.package.map Package.form
  packageGroup := file.packageGroup.map PackageGroup.form

/-- The statements of the canonical derivation, each with its tree. -/
def canonicalStatements : List (StatementForm × Statement Empty) :=
  file.sorted.loads.map (fun load => (.load load.form, .load load.bare)) ++
    (file.declarations.map (fun declaration =>
      (.body (.declaration declaration.form), .declaration declaration.bare)) ++
    (file.exportsFiles.toList.map (fun exports =>
      (.body (.exportsFiles exports.form), .exportsFiles exports.bare)) ++
    (file.rules.pmap (fun rule free => (.body (.rule (rule.form free)), .rule rule.bare)) free ++
    (file.package.toList.map (fun package => (.package package.form, .package package.bare)) ++
    file.packageGroup.toList.map (fun group =>
      (.packageGroup group.form, .packageGroup group.bare))))))

theorem canonicalStatements_forms :
    (file.canonicalStatements free).map Prod.fst = (file.form free).statements := by
  simp [canonicalStatements, form, FileForm.statements, Function.comp_def, List.map_pmap,
    Option.toList_map]

theorem canonicalStatements_trees :
    (file.canonicalStatements free).map Prod.snd =
      file.sorted.loads.map (fun load => Statement.load load.bare) ++
        (file.declarations.map (fun declaration => Statement.declaration declaration.bare) ++
        (file.exportsFiles.toList.map (fun exports => Statement.exportsFiles exports.bare) ++
        (file.rules.map (fun rule => Statement.rule rule.bare) ++
        (file.package.toList.map (fun package => Statement.package package.bare) ++
        file.packageGroup.toList.map (fun group => Statement.packageGroup group.bare))))) := by
  simp [canonicalStatements, Function.comp_def, List.map_pmap]

theorem canonicalStatements_file :
    ofStatements ((file.canonicalStatements free).map Prod.snd) = file.sorted.bare := by
  have dropped {α β : Type} (items : List α) :
      items.filterMap (fun _ => (none : Option β)) = [] := by simp
  have last {α : Type} (item : Option α) : item.toList.getLast? = item := by
    cases item <;> rfl
  -- Each part of the file is kept by one of the filters and dropped by the others.
  rw [canonicalStatements_trees]
  simp only [ofStatements, bare, List.filterMap_append, List.filterMap_map, Function.comp_def,
    List.filterMap_eq_map', dropped, List.append_nil, List.nil_append, List.getLast?_map, last]
  rfl

/-- Read back, the canonical derivation is the sorted file. -/
theorem stands : (file.form free).written.Stands bare file.sorted.bare := by
  have each : ∀ pair ∈ file.canonicalStatements free,
      pair.1.written.Stands Statement.bare pair.2 := by
    intro pair member
    simp only [canonicalStatements, List.mem_append, List.mem_map, List.mem_pmap] at member
    rcases member with ⟨load, _, rfl⟩ | ⟨declaration, _, rfl⟩ | ⟨exports, _, rfl⟩ |
      ⟨rule, _, rfl⟩ | ⟨package, _, rfl⟩ | ⟨group, _, rfl⟩
    · exact load.stands.map fun inner same => congrArg Statement.load same
    · exact declaration.stands.map fun inner same => congrArg Statement.declaration same
    · exact exports.stands.map fun inner same => congrArg Statement.exportsFiles same
    · exact (rule.stands _).map fun inner same => congrArg Statement.rule same
    · exact package.stands.map fun inner same => congrArg Statement.package same
    · exact group.stands.map fun inner same => congrArg Statement.packageGroup same
  have statements : (Written.many ((file.canonicalStatements free).map
      fun pair => pair.1.written)).Stands (List.map Statement.bare)
      ((file.canonicalStatements free).map Prod.snd) := .many _ each
  have forms : ((file.canonicalStatements free).map fun pair => pair.1.written) =
      (file.form free).statements.map StatementForm.written := by
    rw [← canonicalStatements_forms, List.map_map]
    rfl
  rw [forms] at statements
  refine statements.map ?_
  intro inner same
  rw [bare_ofStatements, same, canonicalStatements_file]

end BuildFile

end BuildLang
