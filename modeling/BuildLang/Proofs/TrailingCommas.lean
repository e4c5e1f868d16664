import BuildLang.Proofs.Acceptance
import BuildLang.Proofs.Grammar.Tidy

/-!
# Rejected trailing commas

A comma behind the last item of a list that admits none costs one diagnostic and nothing
else: however many there are and however deep they stand, what is read is the tree of the
tokens without them, and each is told once, at its place and under the name of its list.
-/

set_option autoImplicit false

namespace BuildLang

open BuildLang.Parser

/-- What a caller is told of a comma behind the last item of a list. -/
def StrictList.complaint : StrictList → String
  | .array => "trailing comma is not allowed in an array"
  | .rule => "trailing comma is not allowed in a rule"
  | .load => "trailing comma is not allowed in load()"

/-- The diagnostic tells of the comma: it names the list and points at the comma, which
stands right in front of the token that ends the list. -/
structure SurplusComma.Told (lexemes : List Lexeme) (source : String) (comma : SurplusComma)
    (diagnostic : Diagnostic) : Prop where
  kind : diagnostic.kind = .grammatical
  message : diagnostic.message = comma.list.complaint
  place : ∃ lexeme next, lexemes[comma.index]? = some lexeme ∧ lexeme.token = .comma ∧
    lexemes[comma.index + 1]? = some next ∧ next.token = comma.list.closing ∧
    diagnostic.position = some ((LineIndex.ofSource source).position lexeme.start)

/-! ## Remarks -/

theorem message_of_trailing (fault : Fault) (list : StrictList)
    (reason : fault.reason = .trailingComma list) : fault.message = list.complaint := by
  rw [Fault.message, reason]
  cases list <;> rfl

def SurplusComma.remark (comma : SurplusComma) : Remark :=
  ⟨comma.index, comma.list.complaint⟩

/-- What a fault says of a comma follows from its mark. -/
theorem toRemark_of_mark (fault : Fault) (comma : SurplusComma) (same : fault.mark = comma.mark) :
    fault.toRemark = comma.remark := by
  obtain ⟨start, reason⟩ := Prod.mk.inj same
  rw [Fault.toRemark, message_of_trailing fault _ reason, start, SurplusComma.remark]

theorem remarks_of_marks (faults : List Fault) (commas : List SurplusComma)
    (marks : faults.map Fault.mark = commas.map SurplusComma.mark) :
    faults.map Fault.toRemark = commas.map SurplusComma.remark := by
  rw [← List.forall₂_eq_eq_eq, List.forall₂_map_left_iff, List.forall₂_map_right_iff] at marks ⊢
  exact marks.imp toRemark_of_mark

/-- A token stands in a lexeme, between those of the tokens around it. -/
theorem lexemes_split (lexemes : List Lexeme) (front back : List Token) (lexeme : Token)
    (split : lexemes.map Lexeme.token = front ++ lexeme :: back) :
    ∃ early found late, lexemes = early ++ found :: late ∧ early.length = front.length ∧
      found.token = lexeme ∧ late.map Lexeme.token = back := by
  obtain ⟨early, others, rfl, rfl, later⟩ := List.map_eq_append_iff.mp split
  obtain ⟨found, late, rfl, rfl, rfl⟩ := List.map_eq_cons_iff.mp later
  exact ⟨early, found, late, rfl, (List.length_map _).symm, rfl, rfl⟩

theorem trails_told (lexemes : List Lexeme) (source : String) (comma : SurplusComma)
    (trails : comma.Trails 0 (lexemes.map Lexeme.token)) :
    comma.Told lexemes source (comma.remark.toDiagnostic
      (tokenPosition (.ofSource source) lexemes.toArray)) := by
  obtain ⟨front, back, split, place⟩ := trails
  obtain ⟨early, lexeme, more, rfl, length, isComma, later⟩ := lexemes_split lexemes _ _ _ split
  obtain ⟨next, rest, rfl, closes, -⟩ := List.map_eq_cons_iff.mp later
  rw [Nat.zero_add, ← length] at place
  refine ⟨rfl, rfl, lexeme, next, ?_, isComma, ?_, closes, ?_⟩
  · simp [place]
  · simp [place]
  · simp [Remark.toDiagnostic, SurplusComma.remark, tokenPosition, place]

/-! ## Reading -/

theorem readSteps_surplus (recovery : Recovery) (forms : List StatementForm) :
    ∃ faults,
      readSteps recovery (Written.many (forms.map StatementForm.step)).tokens =
        (some ((Written.many (forms.map StatementForm.step)).tree 0), faults) ∧
      faults.map Fault.mark =
        ((Written.many (forms.map StatementForm.step)).surplus 0).map SurplusComma.mark := by
  obtain ⟨faults, hint, reply, marks⟩ := reads_document recovery forms
  exact ⟨faults, by simp [readSteps, reply], marks⟩

/-- Reading a file remarks on its surplus commas alone; without recovery it then gives no
tree. -/
theorem readTokens_surplus (recovery : Recovery) (form : FileForm) :
    readTokens recovery form.written.tokens =
      ⟨if recovery = .off ∧ form.written.surplus 0 ≠ [] then none else some (form.written.tree 0),
        (form.written.surplus 0).map SurplusComma.remark⟩ := by
  obtain ⟨faults, read, marks⟩ := readSteps_surplus recovery form.statements
  have inPlace :
      (assemble ((Written.many (form.statements.map StatementForm.step)).tree 0)).remarks = [] := by
    rw [assemble_inPlace, many_phases]
    exact form.inOrder
  have file : (assemble ((Written.many (form.statements.map StatementForm.step)).tree 0)).file =
      form.written.tree 0 := by
    rw [assemble_file, many_statements]
    rfl
  have surplus : (Written.many (form.statements.map StatementForm.step)).surplus 0 =
      form.written.surplus 0 := many_surplus _ _
  have tokens : form.written.tokens =
      (Written.many (form.statements.map StatementForm.step)).tokens := (many_tokens _).symm
  rw [surplus] at marks
  have remarks := remarks_of_marks _ _ marks
  have none : faults = [] ↔ form.written.surplus 0 = [] := by
    rw [← List.map_eq_nil_iff (f := Fault.mark), marks, List.map_eq_nil_iff]
  rw [tokens, readTokens, read]
  dsimp only
  rw [inPlace, file, remarks, List.append_nil]
  cases recovery with
  | on => simp
  | off =>
    by_cases clean : form.written.surplus 0 = []
    · simp [clean, none.mpr clean]
    · have some : faults ≠ [] := mt none.mp clean
      simp [clean, some]

theorem parseLexemes_surplus (recovery : Recovery) (form : FileForm) (lexemes : List Lexeme)
    (source : String) (written : form.written.tokens = lexemes.map Lexeme.token) :
    parseLexemes recovery lexemes source =
      ⟨if recovery = .off ∧ form.written.surplus 0 ≠ [] then none
        else some ((form.written.tree 0).mapPosition
          (tokenPosition (.ofSource source) lexemes.toArray)),
        Diagnostic.sort ((form.written.surplus 0).map fun comma => comma.remark.toDiagnostic
          (tokenPosition (.ofSource source) lexemes.toArray))⟩ := by
  rw [parseLexemes, ← written, readTokens_surplus, List.map_map]
  dsimp only
  split
  · rfl
  · rfl

/-- Diagnostics on tokens that stand one behind the other are in order. -/
theorem sort_told (lexemes : List Lexeme) (source : String) (commas : List SurplusComma)
    (told : List Diagnostic) (tells : List.Forall₂ (SurplusComma.Told lexemes source) commas told)
    (ascending : (commas.map SurplusComma.index).Pairwise (· < ·))
    (ordered : lexemes.Pairwise fun first second => first.start ≤ second.start) :
    Diagnostic.sort told = told := by
  refine List.mergeSort_of_pairwise ?_
  rw [List.pairwise_map] at ascending
  induction tells with
  | nil => exact .nil
  | @cons comma diagnostic others later first rest ih =>
    obtain ⟨before, ascending⟩ := List.pairwise_cons.mp ascending
    refine .cons ?_ (ih ascending)
    intro behind member
    obtain ⟨index, inside, rfl⟩ := List.mem_iff_getElem.mp member
    have length := rest.length_eq
    have tell : (others.get ⟨index, by omega⟩).Told lexemes source later[index] :=
      rest.get (by omega) inside
    obtain ⟨lexeme, _, found, _, _, _, position⟩ := first.place
    obtain ⟨other, _, otherFound, _, _, _, otherPosition⟩ := tell.place
    have order := before _ (List.getElem_mem (by omega : index < others.length))
    obtain ⟨low, rfl⟩ := List.getElem?_eq_some_iff.mp found
    obtain ⟨high, rfl⟩ := List.getElem?_eq_some_iff.mp otherFound
    have starts := List.pairwise_iff_getElem.mp ordered _ _ low high order
    simp only [Diagnostic.sortKey, position, otherPosition, LineIndex.position, decide_eq_true_eq]
    omega

/-- A rejected trailing comma costs one diagnostic and nothing else.  Take the tokens of a
file with commas in it that their lists do not admit.  Reading with recovery gives the tree
that the tokens without these commas have, up to places, and tells each of them once, in
order; plain reading fails with the same list, or succeeds if there are none. -/
theorem surplus_commas_told (form : FileForm) (lexemes : List Lexeme) (source : String)
    (written : form.written.tokens = lexemes.map Lexeme.token) :
    ∃ told file tidy,
      List.Forall₂ (SurplusComma.Told lexemes source) (form.written.surplus 0) told ∧
      ((form.written.surplus 0).map SurplusComma.index).Pairwise (· < ·) ∧
      (lexemes.Pairwise (fun first second => first.start ≤ second.start) →
        Diagnostic.sort told = told) ∧
      parseTokensRecovering lexemes source = ⟨some file, Diagnostic.sort told⟩ ∧
      (∀ recovery, parseTokens recovery
        (leaveOut ((form.written.surplus 0).map SurplusComma.index) 0 lexemes) source = .ok tidy) ∧
      file.bare = tidy.bare ∧
      ∀ recovery, parseTokens recovery lexemes source =
        if form.written.surplus 0 = [] then .ok file else .error (Diagnostic.sort told) := by
  have tidies := form.tidies
  have tells : List.Forall₂ (SurplusComma.Told lexemes source) (form.written.surplus 0)
      ((form.written.surplus 0).map fun comma => comma.remark.toDiagnostic
        (tokenPosition (.ofSource source) lexemes.toArray)) := by
    rw [List.forall₂_map_right_iff, List.forall₂_same]
    intro comma member
    have trails := tidies.trails 0 comma member
    rw [List.append_nil, written] at trails
    exact trails_told lexemes source comma trails
  have parsed (recovery : Recovery) := parseLexemes_surplus recovery form lexemes source written
  refine ⟨_, (form.written.tree 0).mapPosition
    (tokenPosition (.ofSource source) lexemes.toArray),
    (form.tidy.written.tree 0).mapPosition (tokenPosition (.ofSource source)
      (leaveOut ((form.written.surplus 0).map SurplusComma.index) 0 lexemes).toArray), tells,
    tidies.ascending 0, sort_told lexemes source _ _ tells (tidies.ascending 0),
    (parsed .on).trans (by simp), ?_, ?_, ?_⟩
  · intro recovery
    refine (parseTokens_iff_derivable recovery _ source _).mpr
      ⟨form.tidy, ?_, tidies.clean 0, rfl⟩
    rw [tidies.tokens 0, written, leaveOut_map]
  · rw [BuildFile.bare_mapPosition, BuildFile.bare_mapPosition]
    exact tidies.same 0 0
  · intro recovery
    rw [parseTokens, parsed]
    by_cases clean : form.written.surplus 0 = []
    · simp [clean, Parsed.toExcept, Diagnostic.sort]
    · have some : Diagnostic.sort ((form.written.surplus 0).map fun comma =>
          comma.remark.toDiagnostic (tokenPosition (.ofSource source) lexemes.toArray)) ≠ [] := by
        rw [Ne, sort_eq_nil, List.map_eq_nil_iff]
        exact clean
      rw [if_neg clean, Parsed.toExcept]
      split
      · rename_i none
        exact absurd none some
      · rfl

/-- A load, a rule and a glob in the rule, each with a comma too many. -/
def threeCommas : FileForm where
  loads := [⟨"\"a\"", [.plain "\"b\""], true⟩]
  body := [.rule ⟨"r", by decide, [⟨"s", .glob ⟨[.plain ⟨[.string "\"x\""], true⟩], false⟩⟩], true⟩]
  package := none
  packageGroup := none

def threeCommasText : String :=
  "load(\"a\", \"b\",) r(s = glob([\"x\",]),)"

theorem surplus_commas_told_nested :
    threeCommas.written.tokens = (tokenizeWithSpans threeCommasText).map Lexeme.token ∧
      threeCommas.written.surplus 0 = [⟨5, .load⟩, ⟨15, .array⟩, ⟨18, .rule⟩] ∧
      ∃ told file,
        told.map Diagnostic.message = ["trailing comma is not allowed in load()",
          "trailing comma is not allowed in an array",
          "trailing comma is not allowed in a rule"] ∧
        parseTokensRecovering (tokenizeWithSpans threeCommasText) threeCommasText =
          ⟨some file, Diagnostic.sort told⟩ ∧
        parseTokens .off (tokenizeWithSpans threeCommasText) threeCommasText =
          .error (Diagnostic.sort told) := by
  have written : threeCommas.written.tokens =
      (tokenizeWithSpans threeCommasText).map Lexeme.token := by decide +kernel
  have commas : threeCommas.written.surplus 0 = [⟨5, .load⟩, ⟨15, .array⟩, ⟨18, .rule⟩] := by
    decide +kernel
  obtain ⟨told, file, _, tells, _, _, recovered, _, _, plain⟩ :=
    surplus_commas_told threeCommas _ threeCommasText written
  refine ⟨written, commas, told, file, ?_, recovered, ?_⟩
  · rw [commas] at tells
    obtain _ | ⟨load, _ | ⟨array, _ | ⟨rule, _ | _⟩⟩⟩ := tells
    rw [List.map_cons, List.map_cons, List.map_cons, load.message, array.message, rule.message]
    rfl
  · rw [plain, commas]
    rfl

end BuildLang
