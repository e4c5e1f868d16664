import BuildLang.Proofs.Grammar.Written

/-!
# Derivations

The grammar of BUILD files as a type of derivations for each of its parts.  A
derivation says which tokens it is written with, which tree it stands for, and
which commas in it stand where the grammar admits none; it knows nothing of how
tokens are read.
-/

set_option autoImplicit false

namespace BuildLang

/-! ## Literals -/

namespace Written

def name (text : String) : Written String :=
  leaf (.identifier text) fun _ => text

def string (raw : String) : Written (StringLiteral Nat) :=
  leaf (.string raw) fun start => ⟨raw, some start⟩

def number (raw : String) : Written (NumberLiteral Nat) :=
  leaf (.number raw) fun start => ⟨raw, some start⟩

def boolean (value : Bool) : Written (BooleanLiteral Nat) :=
  leaf (.boolean value) fun start => ⟨value, some start⟩

def identifier (text : String) : Written (Identifier Nat) :=
  leaf (.identifier text) fun start => ⟨text, some start⟩

end Written

/-- `STRING | IDENT` -/
inductive PhraseForm where
  | string (raw : String)
  | identifier (name : String)

def PhraseForm.written : PhraseForm → Written (Phrase Nat)
  | .string raw => (Written.string raw).map .string
  | .identifier name => (Written.identifier name).map .identifier

/-- `STRING | NUMBER | BOOLEAN | IDENT` -/
inductive ElementForm where
  | string (raw : String)
  | number (raw : String)
  | boolean (value : Bool)
  | identifier (name : String)

def ElementForm.written : ElementForm → Written (Element Nat)
  | .string raw => (Written.string raw).map .string
  | .number raw => (Written.number raw).map .number
  | .boolean value => (Written.boolean value).map .boolean
  | .identifier name => (Written.identifier name).map .identifier

/-! ## Arrays and globs -/

/-- `[ element, … ]` -/
def Written.array (form : ListForm ElementForm) : Written (ArrayLiteral Nat) :=
  ((form.written (.rejected .array) ElementForm.written).between
    .leftBracket .rightBracket).mapAt fun start elements => ⟨elements, some start⟩

/-- `array | IDENT` -/
inductive ArrayOrNameForm where
  | array (form : ListForm ElementForm)
  | identifier (name : String)

def ArrayOrNameForm.written : ArrayOrNameForm → Written (ArrayOrName Nat)
  | .array form => (Written.array form).map .array
  | .identifier name => (Written.identifier name).map .identifier

/-- `[ phrase, … ]` -/
def Written.patterns (form : ListForm PhraseForm) : Written (List (Phrase Nat)) :=
  (form.written (.rejected .array) PhraseForm.written).between .leftBracket .rightBracket

/-- `patterns | IDENT = patterns` -/
inductive GlobArgumentForm where
  | plain (patterns : ListForm PhraseForm)
  | named (name : String) (patterns : ListForm PhraseForm)

def GlobArgumentForm.written : GlobArgumentForm → Written (GlobArgument Nat)
  | .plain patterns => (Written.patterns patterns).map .includes
  | .named name patterns =>
      (((Written.name name).before [.equals]).seq (Written.patterns patterns)).map
        fun pair => .named pair.1 pair.2

/-- `glob ( argument, … )` -/
def Written.glob (form : ListForm GlobArgumentForm) : Written (Glob Nat) :=
  (((form.written .allowed GlobArgumentForm.written).between
    .leftParen .rightParen).behind [.glob]).mapAt
      fun start arguments => Glob.ofArguments (some start) arguments

/-! ## Dicts and selects -/

/-- `STRING : value` -/
structure EntryForm (ν : Type) where
  key : String
  value : ν

/-- `dict | IDENT` -/
inductive ConstraintForm (ν : Type) where
  | dict (form : ListForm (EntryForm ν))
  | identifier (name : String)

/-- `select ( constraint, no_match_error = phrase )`, the second part optional -/
structure SelectForm (ν : Type) where
  constraint : ConstraintForm ν
  message : Option PhraseForm

inductive ValueForm where
  | string (raw : String)
  | number (raw : String)
  | boolean (value : Bool)
  | array (form : ListForm ElementForm)
  | glob (form : ListForm GlobArgumentForm)
  | dict (form : ListForm (EntryForm ValueForm))
  | select (form : SelectForm ValueForm)
  | identifier (name : String)

namespace Written

def entry (key : String) (value : Written (Value Nat)) : Written (Entry Nat (Value Nat)) :=
  (((string key).before [.colon]).seq value).map fun pair => ⟨pair.1, pair.2⟩

/-- A dict around its written entries. -/
def dict (entries : List (Written (Entry Nat (Value Nat)))) (comma : Bool) :
    Written (Dict Nat (Value Nat)) :=
  ((list .allowed entries comma).between .leftBrace .rightBrace).mapAt
    fun start entries => ⟨entries, some start⟩

def message (phrase : PhraseForm) : Written (Phrase Nat) :=
  phrase.written.behind [.comma, .identifier "no_match_error", .equals]

/-- A select around its written constraint. -/
def select (constraint : Written (Constraint Nat (Value Nat))) (phrase : Option PhraseForm) :
    Written (Select Nat (Value Nat)) :=
  (((constraint.seq (optional (phrase.map message))).between
    .leftParen .rightParen).behind [.identifier "select"]).mapAt
      fun start pair => ⟨pair.1, pair.2, some start⟩

end Written

namespace ValueForm

mutual

def written : ValueForm → Written (Value Nat)
  | .string raw => (Written.string raw).map .string
  | .number raw => (Written.number raw).map .number
  | .boolean value => (Written.boolean value).map .boolean
  | .array form => (Written.array form).map .array
  | .glob form => (Written.glob form).map .glob
  | .dict ⟨entries, comma⟩ => (Written.dict (entriesWritten entries) comma).map .dict
  | .select ⟨.dict ⟨entries, comma⟩, message⟩ =>
      (Written.select ((Written.dict (entriesWritten entries) comma).map .dict) message).map
        .select
  | .select ⟨.identifier name, message⟩ =>
      (Written.select ((Written.identifier name).map .identifier) message).map .select
  | .identifier name => (Written.identifier name).map .identifier

def entriesWritten : List (EntryForm ValueForm) → List (Written (Entry Nat (Value Nat)))
  | [] => []
  | ⟨key, value⟩ :: rest => Written.entry key (written value) :: entriesWritten rest

end

end ValueForm

def EntryForm.written (form : EntryForm ValueForm) : Written (Entry Nat (Value Nat)) :=
  .entry form.key form.value.written

/-- `{ entry, … }` -/
def Written.dictOf (form : ListForm (EntryForm ValueForm)) : Written (Dict Nat (Value Nat)) :=
  .dict (form.items.map EntryForm.written) form.comma

def ConstraintForm.written : ConstraintForm ValueForm → Written (Constraint Nat (Value Nat))
  | .dict form => (Written.dictOf form).map .dict
  | .identifier name => (Written.identifier name).map .identifier

def SelectForm.written (form : SelectForm ValueForm) : Written (Select Nat (Value Nat)) :=
  .select form.constraint.written form.message

theorem ValueForm.entriesWritten_eq (entries : List (EntryForm ValueForm)) :
    ValueForm.entriesWritten entries = entries.map EntryForm.written := by
  induction entries with
  | nil => rw [ValueForm.entriesWritten, List.map_nil]
  | cons entry rest ih =>
    rw [ValueForm.entriesWritten, List.map_cons, ih]
    rfl

theorem ValueForm.written_dict (form : ListForm (EntryForm ValueForm)) :
    (ValueForm.dict form).written = (Written.dictOf form).map .dict := by
  rw [ValueForm.written, ValueForm.entriesWritten_eq]
  rfl

theorem ValueForm.written_select (form : SelectForm ValueForm) :
    (ValueForm.select form).written = form.written.map .select := by
  obtain ⟨constraint, message⟩ := form
  cases constraint with
  | dict entries =>
    rw [ValueForm.written, ValueForm.entriesWritten_eq]
    rfl
  | identifier name =>
    rw [ValueForm.written]
    rfl

/-- What may stand behind a value: anything but the parenthesis that would make a call
of the name `select`. -/
def ValueForm.Admits (form : ValueForm) (found : Option Token) : Prop :=
  form = .identifier "select" → found ≠ some .leftParen

/-! ## Statements -/

/-- `STRING | IDENT = STRING` -/
inductive SymbolForm where
  | plain (raw : String)
  | renamed (name raw : String)

def SymbolForm.written : SymbolForm → Written (LoadedSymbol Nat)
  | .plain raw => (Written.string raw).map fun symbol => .plain symbol.value symbol.position
  | .renamed name raw =>
      (((Written.name name).before [.equals]).seq (Written.string raw)).mapAt
        fun start pair => .renamed pair.1 pair.2.value (some start)

/-- `load ( STRING , symbol, … )` -/
structure LoadForm where
  label : String
  symbols : ListForm SymbolForm

def LoadForm.written (form : LoadForm) : Written (Load Nat) :=
  (((((Written.string form.label).before [.comma]).seq
    (form.symbols.written (.rejected .load) SymbolForm.written)).between
      .leftParen .rightParen).behind [.load]).mapAt
        fun start pair => ⟨pair.1.value, pair.2, some start⟩

/-- `IDENT = value` -/
structure ArgumentForm where
  name : String
  value : ValueForm

namespace ArgumentForm

def written (form : ArgumentForm) : Written (Argument Nat) :=
  (((Written.name form.name).before [.equals]).seq form.value.written).map
    fun pair => ⟨pair.1, pair.2⟩

def ruleAttribute (form : ArgumentForm) : Written (Attribute Nat) :=
  form.written.mapAt fun start argument => ⟨argument.name, argument.value, some start⟩

def declaration (form : ArgumentForm) : Written (Declaration Nat) :=
  form.written.mapAt fun start argument => ⟨argument.name, argument.value, some start⟩

end ArgumentForm

/-- Arguments in parentheses. -/
def Written.arguments (form : ListForm ArgumentForm) : Written (List (Argument Nat)) :=
  (form.written .allowed ArgumentForm.written).between .leftParen .rightParen

/-- The names of the calls that are no rules. -/
def callNames : List String :=
  ["package", "package_group", "exports_files", "select"]

/-- Reading a rule passes over these names and no other. -/
@[simp]
theorem mem_reservedNames (name : String) : name ∈ reservedNames ↔ name ∈ callNames :=
  Iff.rfl

/-- `IDENT ( argument, … )`, where the name is not one of a call of its own -/
structure RuleForm where
  kind : String
  free : kind ∉ callNames
  attributes : ListForm ArgumentForm

def RuleForm.written (form : RuleForm) : Written (Rule Nat) :=
  ((Written.name form.kind).seq
    ((form.attributes.written (.rejected .rule) ArgumentForm.ruleAttribute).between
      .leftParen .rightParen)).mapAt fun start pair => ⟨pair.1, pair.2, some start⟩

/-- `package ( argument, … )` -/
def Written.package (form : ListForm ArgumentForm) : Written (Package Nat) :=
  ((Written.arguments form).behind [.identifier "package"]).mapAt
    fun start arguments => Package.ofArguments (some start) arguments

/-- `package_group ( argument, … )` -/
def Written.packageGroup (form : ListForm ArgumentForm) : Written (PackageGroup Nat) :=
  ((Written.arguments form).behind [.identifier "package_group"]).mapAt
    fun start arguments => PackageGroup.ofArguments (some start) arguments

/-- `, IDENT = files`, under any name -/
structure VisibilityForm where
  name : String
  files : ArrayOrNameForm

def VisibilityForm.written (form : VisibilityForm) : Written (ArrayOrName Nat) :=
  form.files.written.behind [.comma, .identifier form.name, .equals]

/-- `exports_files ( files visibility , )`, visibility and comma optional -/
structure ExportsFilesForm where
  files : ArrayOrNameForm
  visibility : Option VisibilityForm
  comma : Bool

def ExportsFilesForm.written (form : ExportsFilesForm) : Written (ExportsFiles Nat) :=
  ((((form.files.written.seq
    (.optional (form.visibility.map VisibilityForm.written))).before
      (if form.comma then [.comma] else [])).between
        .leftParen .rightParen).behind [.identifier "exports_files"]).mapAt
          fun start pair => ⟨pair.1, pair.2, some start⟩

/-! ## Files -/

/-- `rule | declaration | exports_files` -/
inductive BodyForm where
  | rule (form : RuleForm)
  | declaration (form : ArgumentForm)
  | exportsFiles (form : ExportsFilesForm)

inductive StatementForm where
  | load (form : LoadForm)
  | body (form : BodyForm)
  | package (form : ListForm ArgumentForm)
  | packageGroup (form : ListForm ArgumentForm)

def StatementForm.written : StatementForm → Written (Statement Nat)
  | .load form => form.written.map .load
  | .body (.rule form) => form.written.map .rule
  | .body (.declaration form) => form.declaration.map .declaration
  | .body (.exportsFiles form) => form.written.map .exportsFiles
  | .package form => (Written.package form).map .package
  | .packageGroup form => (Written.packageGroup form).map .packageGroup

/-- What may stand behind a statement. -/
def StatementForm.Admits : StatementForm → Option Token → Prop
  | .body (.declaration form), found => form.value.Admits found
  | _, _ => True

theorem StatementForm.admits_of_ne (form : StatementForm) (found : Option Token)
    (noParen : found ≠ some .leftParen) : form.Admits found := by
  match form with
  | .body (.declaration form) => exact fun _ => noParen
  | .load _ | .body (.rule _) | .body (.exportsFiles _) | .package _ | .packageGroup _ =>
    exact trivial

namespace Written

variable {α : Type}

/-- Stretches one behind the other. -/
def many : List (Written α) → Written (List α)
  | [] => ⟨[], fun _ => [], fun _ => []⟩
  | first :: others => (first.seq (many others)).map fun pair => pair.1 :: pair.2

end Written

namespace BuildFile

variable {π : Type}

/-- The tree that some statements are gathered in: of the calls that a file has
room for once, the last one stays. -/
def ofStatements (statements : List (Statement π)) : BuildFile π where
  loads := statements.filterMap fun
    | .load node => some node
    | _ => none
  rules := statements.filterMap fun
    | .rule node => some node
    | _ => none
  declarations := statements.filterMap fun
    | .declaration node => some node
    | _ => none
  package := (statements.filterMap fun
    | .package node => some node
    | _ => none).getLast?
  packageGroup := (statements.filterMap fun
    | .packageGroup node => some node
    | _ => none).getLast?
  exportsFiles := (statements.filterMap fun
    | .exportsFiles node => some node
    | _ => none).getLast?

end BuildFile

/-- `load* body* package? package_group?` -/
structure FileForm where
  loads : List LoadForm
  body : List BodyForm
  package : Option (ListForm ArgumentForm)
  packageGroup : Option (ListForm ArgumentForm)

namespace FileForm

def statements (form : FileForm) : List StatementForm :=
  form.loads.map .load ++ form.body.map .body ++ (form.package.map .package).toList ++
    (form.packageGroup.map .packageGroup).toList

def written (form : FileForm) : Written (BuildFile Nat) :=
  (Written.many (form.statements.map StatementForm.written)).map BuildFile.ofStatements

end FileForm

end BuildLang
