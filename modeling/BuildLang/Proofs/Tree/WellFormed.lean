import BuildLang.Proofs.Grammar.Form
import BuildLang.Proofs.Token.Spelling
import BuildLang.Proofs.Tree.Bare

/-!
# Well-formed trees

A tree that was built by hand can hold texts that no source spells.  In a
well-formed one every literal and every name is the image of one token, texts
that are printed between quotes can stand there, and no rule goes by the name of
another call.
-/

set_option autoImplicit false

namespace BuildLang

variable {π : Type}

def StringLiteral.WellFormed (literal : StringLiteral π) : Prop :=
  (Token.string literal.raw).Legal

def NumberLiteral.WellFormed (literal : NumberLiteral π) : Prop :=
  (Token.number literal.raw).Legal

def Identifier.WellFormed (node : Identifier π) : Prop :=
  (Token.identifier node.name).Legal

def Phrase.WellFormed : Phrase π → Prop
  | .string literal => literal.WellFormed
  | .identifier node => node.WellFormed

def Element.WellFormed : Element π → Prop
  | .string literal => literal.WellFormed
  | .number literal => literal.WellFormed
  | .boolean _ => True
  | .identifier node => node.WellFormed

def ArrayLiteral.WellFormed (array : ArrayLiteral π) : Prop :=
  ∀ element ∈ array.elements, element.WellFormed

def ArrayOrName.WellFormed : ArrayOrName π → Prop
  | .array node => node.WellFormed
  | .identifier node => node.WellFormed

structure Glob.WellFormed (glob : Glob π) : Prop where
  includes : ∀ patterns ∈ glob.includes, ∀ pattern ∈ patterns, Phrase.WellFormed pattern
  excludes : ∀ patterns ∈ glob.excludes, ∀ pattern ∈ patterns, Phrase.WellFormed pattern

namespace Value

mutual

def WellFormed : Value π → Prop
  | .string literal => literal.WellFormed
  | .number literal => literal.WellFormed
  | .boolean _ => True
  | .array node => node.WellFormed
  | .identifier node => node.WellFormed
  | .glob node => node.WellFormed
  | .dict ⟨entries, _⟩ => EntriesWellFormed entries
  | .select ⟨.dict ⟨entries, _⟩, message, _⟩ =>
      EntriesWellFormed entries ∧ ∀ phrase ∈ message, Phrase.WellFormed phrase
  | .select ⟨.identifier node, message, _⟩ =>
      node.WellFormed ∧ ∀ phrase ∈ message, Phrase.WellFormed phrase

def EntriesWellFormed : List (Entry π (Value π)) → Prop
  | [] => True
  | ⟨key, value⟩ :: rest => key.WellFormed ∧ WellFormed value ∧ EntriesWellFormed rest

end

end Value

structure Entry.WellFormed (entry : Entry π (Value π)) : Prop where
  key : entry.key.WellFormed
  value : entry.value.WellFormed

theorem Value.entriesWellFormed_iff (entries : List (Entry π (Value π))) :
    Value.EntriesWellFormed entries ↔ ∀ entry ∈ entries, entry.WellFormed := by
  induction entries with
  | nil => simp [Value.EntriesWellFormed]
  | cons entry rest ih =>
    rw [Value.EntriesWellFormed, ih, List.forall_mem_cons, ← and_assoc]
    refine and_congr_left fun _ => ?_
    exact ⟨fun both => ⟨both.1, both.2⟩, fun both => ⟨both.key, both.value⟩⟩

def Constraint.WellFormed : Constraint π (Value π) → Prop
  | .dict node => ∀ entry ∈ node.entries, entry.WellFormed
  | .identifier node => node.WellFormed

theorem Value.wellFormed_select (node : Select π (Value π)) :
    (Value.select node).WellFormed ↔
      node.constraint.WellFormed ∧ ∀ phrase ∈ node.noMatchError, Phrase.WellFormed phrase := by
  obtain ⟨constraint, message, position⟩ := node
  cases constraint with
  | dict node =>
    rw [Value.WellFormed, Value.entriesWellFormed_iff]
    rfl
  | identifier node =>
    rw [Value.WellFormed]
    rfl

/-! ## Texts between quotes -/

/-- A text that can stand between the quotes of a string. -/
def Quotable (text : String) : Prop :=
  Pattern.StringBody text.toList

theorem toList_quoted (text : String) : (quoted text).toList = '"' :: (text.toList ++ ['"']) := by
  simp [quoted]

theorem unquoted_image (raw : String) (body : List Char)
    (written : raw.toList = '"' :: (body ++ ['"'])) : unquoted raw = String.ofList body := by
  unfold unquoted
  rw [written]
  simp

theorem unquoted_quoted (text : String) : unquoted (quoted text) = text := by
  rw [unquoted_image _ _ (toList_quoted text), String.ofList_toList]

theorem quoted_legal (text : String) (legal : Quotable text) :
    (Token.string (quoted text)).Legal :=
  ⟨text.toList, legal, toList_quoted text⟩

theorem unquoted_quotable (raw : String) (legal : (Token.string raw).Legal) :
    Quotable (unquoted raw) := by
  obtain ⟨body, bodyLegal, written⟩ := legal
  rw [unquoted_image raw body written, Quotable, String.toList_ofList]
  exact bodyLegal

theorem quotable_iff (text : String) : Quotable text ↔ (Token.string (quoted text)).Legal := by
  constructor
  · exact quoted_legal text
  · intro legal
    have inside := unquoted_quotable _ legal
    rwa [unquoted_quoted] at inside

instance (text : String) : Decidable (Quotable text) :=
  decidable_of_iff _ (quotable_iff text).symm

/-! ## Statements -/

def LoadedSymbol.WellFormed : LoadedSymbol π → Prop
  | .plain symbol _ => Quotable symbol
  | .renamed name symbol _ => (Token.identifier name).Legal ∧ Quotable symbol

structure Load.WellFormed (load : Load π) : Prop where
  source : Quotable load.source
  symbols : ∀ symbol ∈ load.symbols, symbol.WellFormed

structure Argument.WellFormed (argument : Argument π) : Prop where
  name : (Token.identifier argument.name).Legal
  value : argument.value.WellFormed

structure Attribute.WellFormed (argument : Attribute π) : Prop where
  name : (Token.identifier argument.name).Legal
  value : argument.value.WellFormed

structure Rule.WellFormed (rule : Rule π) : Prop where
  kind : (Token.identifier rule.kind).Legal
  free : rule.kind ∉ callNames
  attributes : ∀ argument ∈ rule.attributes, argument.WellFormed

structure Declaration.WellFormed (declaration : Declaration π) : Prop where
  name : (Token.identifier declaration.name).Legal
  value : declaration.value.WellFormed

def Package.WellFormed (package : Package π) : Prop :=
  ∀ slot, ∀ value ∈ package.get slot, Value.WellFormed value

def PackageGroup.WellFormed (group : PackageGroup π) : Prop :=
  ∀ slot, ∀ value ∈ group.get slot, Value.WellFormed value

structure ExportsFiles.WellFormed (exports : ExportsFiles π) : Prop where
  files : exports.files.WellFormed
  visibility : ∀ value ∈ exports.visibility, ArrayOrName.WellFormed value

structure BuildFile.WellFormed (file : BuildFile π) : Prop where
  loads : ∀ load ∈ file.loads, load.WellFormed
  rules : ∀ rule ∈ file.rules, rule.WellFormed
  declarations : ∀ declaration ∈ file.declarations, declaration.WellFormed
  package : ∀ package ∈ file.package, Package.WellFormed package
  packageGroup : ∀ group ∈ file.packageGroup, PackageGroup.WellFormed group
  exportsFiles : ∀ exports ∈ file.exportsFiles, ExportsFiles.WellFormed exports

end BuildLang
