import BuildLang.Proofs.Tree.Arguments
import BuildLang.Proofs.Tree.CanonicalFile
import BuildLang.Proofs.Tree.WellFormed

/-!
# Trees of legal tokens

Scanned tokens are legal, and whatever derivation they are read with, the tree
of it is well-formed.
-/

set_option autoImplicit false

namespace BuildLang

namespace Written

/-- If the tokens of the stretch are legal, its tree is `good` wherever it stands. -/
def Yields {α : Type} (written : Written α) (good : α → Prop) : Prop :=
  (∀ lexeme ∈ written.tokens, lexeme.Legal) → ∀ start, good (written.tree start)

namespace Yields

variable {α β σ : Type} {written : Written α} {good : α → Prop}

theorem leaf {tree : Nat → α} (lexeme : Token) (holds : lexeme.Legal → ∀ start, good (tree start)) :
    (Written.leaf lexeme tree).Yields good :=
  fun legal => holds (legal lexeme (by simp))

theorem mapAt {f : Nat → α → β} {other : β → Prop} (yields : written.Yields good)
    (image : ∀ start inner, good inner → other (f start inner)) :
    (written.mapAt f).Yields other :=
  fun legal start => image start _ (yields legal start)

theorem map {f : α → β} {other : β → Prop} (yields : written.Yields good)
    (image : ∀ inner, good inner → other (f inner)) : (written.map f).Yields other :=
  yields.mapAt fun _ => image

theorem behind (front : List Token) (yields : written.Yields good) :
    (written.behind front).Yields good := by
  intro legal start
  exact yields (fun lexeme member => legal lexeme (by simp [member])) _

theorem before (back : List Token) (yields : written.Yields good) :
    (written.before back).Yields good := by
  intro legal start
  exact yields (fun lexeme member => legal lexeme (by simp [member])) _

theorem between (opening closing : Token) (yields : written.Yields good) :
    (written.between opening closing).Yields good := by
  intro legal start
  exact yields (fun lexeme member => legal lexeme (by simp [member])) _

theorem seq {second : Written β} {other : β → Prop} (yields : written.Yields good)
    (rest : second.Yields other) :
    (written.seq second).Yields fun pair => good pair.1 ∧ other pair.2 := by
  intro legal start
  constructor
  · exact yields (fun lexeme member => legal lexeme (by simp [member])) _
  · exact rest (fun lexeme member => legal lexeme (by simp [member])) _

theorem optional (write : σ → Written α) (source : Option σ)
    (each : ∀ item, (write item).Yields good) :
    (Written.optional (source.map write)).Yields fun result => ∀ inner ∈ result, good inner := by
  intro legal start inner member
  cases source with
  | none => cases member
  | some item =>
    obtain rfl := Option.some.inj member
    exact each item legal start

theorem items (sources : List (Written α)) (each : ∀ item ∈ sources, item.Yields good)
    (legal : ∀ lexeme ∈ itemTokens sources, lexeme.Legal) (start : Nat) :
    ∀ inner ∈ itemTrees start sources, good inner := by
  induction sources generalizing start with
  | nil => simp [itemTrees]
  | cons item others ih =>
    -- A further item stands behind a comma, the first of the others does not.
    have later : ∀ lexeme ∈ itemTokens others, lexeme.Legal := by
      intro lexeme member
      refine legal lexeme ?_
      cases others with
      | nil => simp [itemTokens] at member
      | cons next rest =>
        rw [itemTokens_cons_cons]
        simp [member]
    intro inner member
    rcases List.mem_cons.mp member with rfl | member
    · refine each item (by simp) ?_ start
      exact fun lexeme member => legal lexeme (by simp [itemTokens, member])
    · exact ih (fun other member => each other (by simp [member])) later _ inner member

theorem list (trailing : TrailingComma) (sources : List (Written α)) (comma : Bool)
    (each : ∀ item ∈ sources, item.Yields good) :
    (Written.list trailing sources comma).Yields fun result => ∀ inner ∈ result, good inner := by
  intro legal start
  refine items sources each ?_ start
  intro lexeme member
  exact legal lexeme (by simp [Written.list, member])

theorem listOf {write : σ → Written α} (trailing : TrailingComma) (form : ListForm σ)
    (each : ∀ item, (write item).Yields good) :
    (form.written trailing write).Yields fun result => ∀ inner ∈ result, good inner := by
  refine list trailing _ form.comma ?_
  intro item member
  obtain ⟨source, _, rfl⟩ := List.mem_map.mp member
  exact each source

theorem many (sources : List (Written α)) (each : ∀ item ∈ sources, item.Yields good) :
    (Written.many sources).Yields fun result => ∀ inner ∈ result, good inner := by
  induction sources with
  | nil => intro legal start inner member; cases member
  | cons item others ih =>
    have first := each item (by simp)
    have rest := ih (fun later member => each later (by simp [member]))
    refine (first.seq rest).map ?_
    intro pair both
    exact List.forall_mem_cons.mpr both

end Yields

end Written

open Written

/-! ## Values -/

theorem yields_name (text : String) :
    (Written.name text).Yields fun name => (Token.identifier name).Legal :=
  .leaf _ fun legal _ => legal

theorem yields_string (raw : String) : (Written.string raw).Yields StringLiteral.WellFormed :=
  .leaf _ fun legal _ => legal

theorem yields_number (raw : String) : (Written.number raw).Yields NumberLiteral.WellFormed :=
  .leaf _ fun legal _ => legal

theorem yields_identifier (text : String) :
    (Written.identifier text).Yields Identifier.WellFormed :=
  .leaf _ fun legal _ => legal

theorem PhraseForm.yields (form : PhraseForm) : form.written.Yields Phrase.WellFormed := by
  cases form with
  | string raw => exact (yields_string raw).map fun _ legal => legal
  | identifier name => exact (yields_identifier name).map fun _ legal => legal

theorem ElementForm.yields (form : ElementForm) : form.written.Yields Element.WellFormed := by
  cases form with
  | string raw => exact (yields_string raw).map fun _ legal => legal
  | number raw => exact (yields_number raw).map fun _ legal => legal
  | boolean value => exact fun _ _ => trivial
  | identifier name => exact (yields_identifier name).map fun _ legal => legal

theorem yields_array (form : ListForm ElementForm) :
    (Written.array form).Yields ArrayLiteral.WellFormed :=
  ((Yields.listOf _ form ElementForm.yields).between _ _).mapAt fun _ _ legal => legal

theorem ArrayOrNameForm.yields (form : ArrayOrNameForm) :
    form.written.Yields ArrayOrName.WellFormed := by
  cases form with
  | array form => exact (yields_array form).map fun _ legal => legal
  | identifier name => exact (yields_identifier name).map fun _ legal => legal

variable {π : Type}

def GlobArgument.WellFormed : GlobArgument π → Prop
  | .includes patterns => ∀ pattern ∈ patterns, Phrase.WellFormed pattern
  | .excludes patterns => ∀ pattern ∈ patterns, Phrase.WellFormed pattern

theorem GlobArgument.wellFormed_iff (argument : GlobArgument π) :
    argument.WellFormed ↔ ∀ pattern ∈ argument.patterns, Phrase.WellFormed pattern := by
  cases argument <;> rfl

theorem GlobArgument.named_wellFormed (name : String) (patterns : List (Phrase π))
    (legal : ∀ pattern ∈ patterns, pattern.WellFormed) :
    (GlobArgument.named name patterns).WellFormed := by
  rw [wellFormed_iff, patterns_named]
  exact legal

theorem Glob.ofArguments_wellFormed (position : Option π) (arguments : List (GlobArgument π))
    (legal : ∀ argument ∈ arguments, argument.WellFormed) :
    (Glob.ofArguments position arguments).WellFormed := by
  have kept := Glob.ofArguments_keepsOnly position arguments
  constructor
  · intro patterns found
    obtain ⟨argument, member, rfl⟩ := kept patterns (.inl found)
    exact (argument.wellFormed_iff).mp (legal argument member)
  · intro patterns found
    obtain ⟨argument, member, rfl⟩ := kept patterns (.inr found)
    exact (argument.wellFormed_iff).mp (legal argument member)

theorem yields_patterns (form : ListForm PhraseForm) :
    (Written.patterns form).Yields fun patterns =>
      ∀ pattern ∈ patterns, Phrase.WellFormed pattern :=
  (Yields.listOf _ form PhraseForm.yields).between _ _

theorem GlobArgumentForm.yields (form : GlobArgumentForm) :
    form.written.Yields GlobArgument.WellFormed := by
  cases form with
  | plain patterns => exact (yields_patterns patterns).map fun _ legal => legal
  | named name patterns =>
    refine (((yields_name name).before _).seq (yields_patterns patterns)).map ?_
    intro pair both
    exact GlobArgument.named_wellFormed pair.1 pair.2 both.2

theorem yields_glob (form : ListForm GlobArgumentForm) :
    (Written.glob form).Yields Glob.WellFormed := by
  refine (((Yields.listOf _ form GlobArgumentForm.yields).between _ _).behind _).mapAt ?_
  intro start arguments legal
  exact Glob.ofArguments_wellFormed (some start) arguments legal

theorem yields_entry (key : String) (value : Written (Value Nat))
    (yields : value.Yields Value.WellFormed) :
    (Written.entry key value).Yields Entry.WellFormed :=
  (((yields_string key).before _).seq yields).map fun _ both => ⟨both.1, both.2⟩

theorem yields_dict (entries : List (Written (Entry Nat (Value Nat)))) (comma : Bool)
    (each : ∀ entry ∈ entries, entry.Yields Entry.WellFormed) :
    (Written.dict entries comma).Yields fun node => ∀ entry ∈ node.entries, entry.WellFormed :=
  ((Yields.list .allowed entries comma each).between _ _).mapAt fun _ _ legal => legal

theorem yields_select (constraint : Written (Constraint Nat (Value Nat)))
    (phrase : Option PhraseForm) (yields : constraint.Yields Constraint.WellFormed) :
    ((Written.select constraint phrase).map Value.select).Yields Value.WellFormed := by
  have message := Yields.optional Written.message phrase fun item =>
    (PhraseForm.yields item).behind _
  have call := ((yields.seq message).between .leftParen .rightParen).behind
    [.identifier "select"]
  have whole : (Written.select constraint phrase).Yields fun node =>
      node.constraint.WellFormed ∧ ∀ phrase ∈ node.noMatchError, Phrase.WellFormed phrase :=
    call.mapAt fun _ _ both => both
  exact whole.map fun node both => (Value.wellFormed_select node).mpr both

namespace ValueForm

mutual

theorem yields : ∀ form : ValueForm, form.written.Yields Value.WellFormed
  | .string raw => (yields_string raw).map fun _ legal => legal
  | .number raw => (yields_number raw).map fun _ legal => legal
  | .boolean value => fun _ _ => trivial
  | .array form => (yields_array form).map fun _ legal => legal
  | .glob form => (yields_glob form).map fun _ legal => legal
  | .identifier name => (yields_identifier name).map fun _ legal => legal
  | .dict ⟨entries, comma⟩ => by
      rw [written]
      refine (yields_dict _ comma (entries_yield entries)).map ?_
      intro node legal
      exact (Value.entriesWellFormed_iff node.entries).mpr legal
  | .select ⟨.dict ⟨entries, comma⟩, message⟩ => by
      rw [written]
      refine yields_select _ message ?_
      exact (yields_dict _ comma (entries_yield entries)).map fun _ legal => legal
  | .select ⟨.identifier name, message⟩ => by
      rw [written]
      refine yields_select _ message ?_
      exact (yields_identifier name).map fun _ legal => legal

theorem entries_yield : ∀ entries : List (EntryForm ValueForm),
    ∀ entry ∈ entriesWritten entries, entry.Yields Entry.WellFormed
  | [] => by
      intro entry member
      rw [entriesWritten] at member
      cases member
  | ⟨key, value⟩ :: rest => by
      intro entry member
      rw [entriesWritten] at member
      rcases List.mem_cons.mp member with rfl | later
      · exact yields_entry key value.written (yields value)
      · exact entries_yield rest entry later

end

end ValueForm

/-! ## Loads -/

theorem SymbolForm.yields (form : SymbolForm) : form.written.Yields LoadedSymbol.WellFormed := by
  cases form with
  | plain raw => exact (yields_string raw).map fun literal legal => unquoted_quotable _ legal
  | renamed name raw =>
    refine (((yields_name name).before _).seq (yields_string raw)).mapAt ?_
    intro start pair both
    exact ⟨both.1, unquoted_quotable _ both.2⟩

theorem LoadForm.yields (form : LoadForm) : form.written.Yields Load.WellFormed := by
  have symbols := Yields.listOf (.rejected .load) form.symbols SymbolForm.yields
  have call := (((yields_string form.label).before [.comma]).seq symbols).between
    .leftParen .rightParen
  refine (call.behind _).mapAt ?_
  intro start pair both
  exact ⟨unquoted_quotable _ both.1, both.2⟩

/-! ## Calls -/

namespace ArgumentForm

theorem yields (form : ArgumentForm) : form.written.Yields Argument.WellFormed :=
  (((yields_name form.name).before _).seq form.value.yields).map fun _ both => ⟨both.1, both.2⟩

theorem ruleAttribute_yields (form : ArgumentForm) :
    form.ruleAttribute.Yields Attribute.WellFormed :=
  form.yields.mapAt fun _ _ legal => ⟨legal.name, legal.value⟩

theorem declaration_yields (form : ArgumentForm) :
    form.declaration.Yields Declaration.WellFormed :=
  form.yields.mapAt fun _ _ legal => ⟨legal.name, legal.value⟩

end ArgumentForm

theorem yields_arguments (form : ListForm ArgumentForm) :
    (Written.arguments form).Yields fun arguments =>
      ∀ argument ∈ arguments, Argument.WellFormed argument :=
  (Yields.listOf _ form ArgumentForm.yields).between _ _

theorem RuleForm.yields (form : RuleForm) : form.written.Yields Rule.WellFormed := by
  have attributes := (Yields.listOf (.rejected .rule) form.attributes
    ArgumentForm.ruleAttribute_yields).between .leftParen .rightParen
  have kind : (Written.name form.kind).Yields fun name =>
      (Token.identifier name).Legal ∧ name ∉ callNames :=
    .leaf _ fun legal _ => ⟨legal, form.free⟩
  refine (kind.seq attributes).mapAt ?_
  intro start pair both
  exact ⟨both.1.1, both.1.2, both.2⟩

theorem Slots.ofArguments_wellFormed {κ : Type} [DecidableEq κ] {ν : Type → Type}
    (slots : Slots κ ν) (position : Option π) (arguments : List (Argument π))
    (legal : ∀ argument ∈ arguments, argument.WellFormed) :
    ∀ slot, ∀ value ∈ slots.get (slots.ofArguments position arguments) slot,
      Value.WellFormed value :=
  fun _ _ held => (legal _ (slots.get_ofArguments_mem held)).value

theorem yields_package (form : ListForm ArgumentForm) :
    (Written.package form).Yields Package.WellFormed :=
  ((yields_arguments form).behind _).mapAt fun start arguments legal =>
    Package.slots.ofArguments_wellFormed (some start) arguments legal

theorem yields_packageGroup (form : ListForm ArgumentForm) :
    (Written.packageGroup form).Yields PackageGroup.WellFormed :=
  ((yields_arguments form).behind _).mapAt fun start arguments legal =>
    PackageGroup.slots.ofArguments_wellFormed (some start) arguments legal

theorem ExportsFilesForm.yields (form : ExportsFilesForm) :
    form.written.Yields ExportsFiles.WellFormed := by
  have visibility := Yields.optional VisibilityForm.written form.visibility
    fun item => item.files.yields.behind _
  have call := ((form.files.yields.seq visibility).before
    (if form.comma then [.comma] else [])).between .leftParen .rightParen
  refine (call.behind _).mapAt ?_
  intro start pair both
  exact ⟨both.1, both.2⟩

/-! ## Files -/

def Statement.WellFormed : Statement π → Prop
  | .load node => node.WellFormed
  | .rule node => node.WellFormed
  | .declaration node => node.WellFormed
  | .package node => node.WellFormed
  | .packageGroup node => node.WellFormed
  | .exportsFiles node => node.WellFormed
  | .skipped => True

theorem StatementForm.yields (form : StatementForm) :
    form.written.Yields Statement.WellFormed := by
  cases form with
  | load form => exact form.yields.map fun _ legal => legal
  | body form =>
    cases form with
    | rule form => exact form.yields.map fun _ legal => legal
    | declaration form => exact form.declaration_yields.map fun _ legal => legal
    | exportsFiles form => exact form.yields.map fun _ legal => legal
  | package form => exact (yields_package form).map fun _ legal => legal
  | packageGroup form => exact (yields_packageGroup form).map fun _ legal => legal

theorem forall_mem_filterMap {α β : Type} (read : α → Option β) (items : List α)
    (good : α → Prop) (other : β → Prop) (each : ∀ item ∈ items, good item)
    (image : ∀ item result, read item = some result → good item → other result) :
    ∀ result ∈ items.filterMap read, other result := by
  intro result member
  obtain ⟨item, inside, found⟩ := List.mem_filterMap.mp member
  exact image item result found (each item inside)

theorem BuildFile.ofStatements_wellFormed (statements : List (Statement π))
    (legal : ∀ statement ∈ statements, statement.WellFormed) :
    (BuildFile.ofStatements statements).WellFormed where
  loads := by
    refine forall_mem_filterMap _ statements _ _ legal ?_
    intro statement node found good
    cases statement <;> cases found
    exact good
  rules := by
    refine forall_mem_filterMap _ statements _ _ legal ?_
    intro statement node found good
    cases statement <;> cases found
    exact good
  declarations := by
    refine forall_mem_filterMap _ statements _ _ legal ?_
    intro statement node found good
    cases statement <;> cases found
    exact good
  package := by
    intro package found
    refine forall_mem_filterMap _ statements _ _ legal ?_ package (List.mem_of_getLast? found)
    intro statement node found good
    cases statement <;> cases found
    exact good
  packageGroup := by
    intro group found
    refine forall_mem_filterMap _ statements _ _ legal ?_ group (List.mem_of_getLast? found)
    intro statement node found good
    cases statement <;> cases found
    exact good
  exportsFiles := by
    intro exports found
    refine forall_mem_filterMap _ statements _ _ legal ?_ exports (List.mem_of_getLast? found)
    intro statement node found good
    cases statement <;> cases found
    exact good

/-- The tree of a derivation that is made of legal tokens is well-formed. -/
theorem FileForm.yields (form : FileForm) : form.written.Yields BuildFile.WellFormed := by
  have statements : (Written.many (form.statements.map StatementForm.written)).Yields
      fun statements => ∀ statement ∈ statements, Statement.WellFormed statement := by
    refine .many _ ?_
    intro item member
    obtain ⟨source, _, rfl⟩ := List.mem_map.mp member
    exact source.yields
  exact statements.map fun statements legal =>
    BuildFile.ofStatements_wellFormed statements legal

end BuildLang
