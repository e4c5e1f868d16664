import BuildLang.Parse
import BuildLang.Proofs.Text.ByteOrder
import BuildLang.Proofs.Tree.Sorting
import Mathlib.Data.List.Destutter
import Mathlib.Data.String.Basic

/-!
# Expectations

A message on a token that does not fit names what would have fitted.  What would have
fitted is a set: alternatives are merged into it in whatever order they are tried, and
several tokens can have one description.  The message shows the descriptions in one order
only, each of them once, so how the set happens to be listed leaves no trace in it.
-/

set_option autoImplicit false

namespace BuildLang

/-- The texts are the descriptions of the expected tokens, each one once and in ascending
order of its bytes. -/
structure Describes (expected : List Expected) (texts : List String) : Prop where
  complete : ∀ text, text ∈ texts ↔ ∃ one ∈ expected, one.describe = text
  ascending : texts.Pairwise fun first second => utf8Bytes first < utf8Bytes second

namespace Describes

variable {expected listing : List Expected} {texts others : List String}

theorem of_ascending (complete : ∀ text, text ∈ texts ↔ ∃ one ∈ expected, one.describe = text)
    (ascending : texts.Pairwise (· < ·)) : Describes expected texts where
  complete := complete
  ascending := ascending.imp fun below => (lt_iff_utf8Bytes _ _).mp below

theorem nodup (described : Describes expected texts) : texts.Nodup := by
  refine described.ascending.imp ?_
  rintro first _ below rfl
  exact List.lt_irrefl _ below

/-- One set has one list of descriptions, however the set is listed. -/
theorem unique (described : Describes expected texts) (again : Describes listing others)
    (same : ∀ one, one ∈ listing ↔ one ∈ expected) : texts = others := by
  have rearranged : texts.Perm others := by
    refine (List.perm_ext_iff_of_nodup described.nodup again.nodup).mpr ?_
    intro text
    rw [described.complete, again.complete]
    exact exists_congr fun one => and_congr_left fun _ => (same one).symm
  refine rearranged.eq_of_pairwise ?_ described.ascending again.ascending
  intro first second _ _ below above
  exact absurd above (List.lt_asymm below)

theorem exists_cons (described : Describes expected texts) (some : expected ≠ []) :
    ∃ one ∈ expected, ∃ rest, texts = one.describe :: rest := by
  obtain ⟨front, others, rfl⟩ := List.exists_cons_of_ne_nil some
  have filled := List.ne_nil_of_mem ((described.complete _).mpr ⟨front, List.mem_cons_self, rfl⟩)
  obtain ⟨text, rest, rfl⟩ := List.exists_cons_of_ne_nil filled
  obtain ⟨one, member, rfl⟩ := (described.complete text).mp List.mem_cons_self
  exact ⟨one, member, rest, rfl⟩

end Describes

/-! ## Descriptions put in one at a time -/

@[simp]
theorem mem_insertAscending (text other : String) (texts : List String) :
    other ∈ insertAscending text texts ↔ other = text ∨ other ∈ texts := by
  induction texts with
  | nil => simp [insertAscending]
  | cons head rest ih =>
    rw [insertAscending]
    split
    · exact List.mem_cons
    · split
      · rename_i same
        simp [same]
      · rw [List.mem_cons, ih, List.mem_cons]
        exact or_left_comm

theorem insertAscending_ascending (text : String) (texts : List String)
    (ascending : texts.Pairwise (· < ·)) : (insertAscending text texts).Pairwise (· < ·) := by
  induction texts with
  | nil => exact List.pairwise_singleton _ _
  | cons head rest ih =>
    obtain ⟨least, later⟩ := List.pairwise_cons.mp ascending
    rw [insertAscending]
    split
    · rename_i below
      refine List.pairwise_cons.mpr ⟨?_, ascending⟩
      intro other member
      rcases List.mem_cons.mp member with rfl | member
      · exact below
      · exact String.lt_trans below (least other member)
    · rename_i notBelow
      split
      · exact ascending
      · rename_i differ
        have above : head < text := lt_of_le_of_ne (not_lt.mp notBelow) (Ne.symm differ)
        refine List.pairwise_cons.mpr ⟨?_, ih later⟩
        intro other member
        rcases (mem_insertAscending text other rest).mp member with rfl | member
        · exact above
        · exact least other member

theorem mem_expectations (expected : List Expected) (text : String) :
    text ∈ Fault.expectations expected ↔ ∃ one ∈ expected, one.describe = text := by
  induction expected with
  | nil => simp [Fault.expectations]
  | cons one rest ih =>
    have step : Fault.expectations (one :: rest) =
        insertAscending one.describe (Fault.expectations rest) := rfl
    rw [step, mem_insertAscending, ih, List.exists_mem_cons_iff, eq_comm]

theorem expectations_ascending (expected : List Expected) :
    (Fault.expectations expected).Pairwise (· < ·) := by
  induction expected with
  | nil => exact .nil
  | cons one rest ih => exact insertAscending_ascending one.describe _ ih

theorem describes_expectations (expected : List Expected) :
    Describes expected (Fault.expectations expected) :=
  .of_ascending (mem_expectations expected) (expectations_ascending expected)

/-! ## Descriptions sorted, and repetitions dropped -/

theorem mem_destutter_ne (head text : String) (texts : List String) :
    text ∈ texts.destutter' (· ≠ ·) head ↔ text = head ∨ text ∈ texts := by
  induction texts generalizing head with
  | nil => simp
  | cons next later ih =>
    by_cases same : head = next
    · rw [List.destutter'_cons_neg _ (by simpa using same), ih, List.mem_cons, same]
      tauto
    · rw [List.destutter'_cons_pos _ same, List.mem_cons, ih, List.mem_cons]

theorem destutter_ascending (head : String) (texts : List String)
    (ascending : (head :: texts).Pairwise (· ≤ ·)) :
    (texts.destutter' (· ≠ ·) head).Pairwise (· < ·) := by
  induction texts generalizing head with
  | nil => exact List.pairwise_singleton _ _
  | cons next later ih =>
    obtain ⟨least, further⟩ := List.pairwise_cons.mp ascending
    by_cases same : head = next
    · subst same
      rw [List.destutter'_cons_neg _ (by simp)]
      exact ih head further
    · rw [List.destutter'_cons_pos _ same]
      refine List.pairwise_cons.mpr ⟨?_, ih next further⟩
      intro other member
      have below : head < next := lt_of_le_of_ne (least next List.mem_cons_self) same
      rcases (mem_destutter_ne next other later).mp member with rfl | member
      · exact below
      · exact lt_of_lt_of_le below ((List.pairwise_cons.mp further).1 other member)

/-- The descriptions may as well be sorted all together, and of equal neighbours one be
kept. -/
theorem describes_destutter (expected : List Expected) :
    Describes expected
      (((expected.map Expected.describe).mergeSort (· ≤ ·)).destutter (· ≠ ·)) := by
  have sorted : StableSort id (expected.map Expected.describe)
      ((expected.map Expected.describe).mergeSort (· ≤ ·)) := stableSort_mergeSort id _
  have members (text : String) :
      text ∈ (expected.map Expected.describe).mergeSort (· ≤ ·) ↔
        ∃ one ∈ expected, one.describe = text := by
    rw [sorted.permutation.mem_iff, List.mem_map]
  have ascending := sorted.ascending
  generalize (expected.map Expected.describe).mergeSort (· ≤ ·) = texts at *
  cases texts with
  | nil => exact .of_ascending members .nil
  | cons head rest =>
    refine .of_ascending ?_ (destutter_ascending head rest ascending)
    intro text
    rw [← members, List.mem_cons]
    exact mem_destutter_ne head text rest

/-! ## Messages -/

/-- No description begins the name of a part of the grammar. -/
theorem describe_not_front (one : Expected) (part : Part) :
    ¬ one.describe.toList <+: part.name.toList := by
  cases one with
  | token lexeme =>
    have quoted : "`".toList <+: (Expected.token lexeme).describe.toList := by
      simp [Expected.describe, toString]
    intro front
    -- The names of parts are bare words.
    refine absurd (quoted.trans front) ?_
    cases part <;> decide
  | anyString => cases part <;> decide
  | anyNumber => cases part <;> decide
  | anyIdentifier => cases part <;> decide
  | endOfInput => cases part <;> decide

theorem intercalate_front (separator text : String) (texts : List String) :
    text.toList <+: (separator.intercalate (text :: texts)).toList := by
  cases texts with
  | nil => simp
  | cons next later =>
    rw [String.intercalate_cons_cons, String.toList_append, String.toList_append,
      List.append_assoc]
    exact List.prefix_append _ _

namespace Fault

variable (fault : Fault)

/-- How a message on a token that does not fit begins. -/
def opening : String :=
  "unexpected " ++ foundText fault.found

theorem message_unexpected (unexpected : fault.reason = .unexpected) :
    fault.message = fault.opening ++ fault.expectationText := by
  simp [message, unexpected, opening, toString, String.append_assoc]

theorem expectationText_listed (some : fault.expected ≠ []) :
    fault.expectationText =
      ", expected " ++ " or ".intercalate (expectations fault.expected) := by
  obtain ⟨one, _, rest, filled⟩ := (describes_expectations fault.expected).exists_cons some
  rw [expectationText, filled]

theorem expectationText_labelled (part : Part) (none : fault.expected = [])
    (inside : fault.scope = .within part) :
    fault.expectationText = ", expected " ++ part.name := by
  rw [expectationText, none, inside]
  simp [expectations, toString]

theorem expectationText_bare (none : fault.expected = [])
    (outside : ∀ part, fault.scope ≠ .within part) : fault.expectationText = "" := by
  rw [expectationText, none]
  cases read : fault.scope with
  | within part => exact absurd read (outside part)
  | unknown => rfl
  | several => rfl

/-- Something that was expected is not told like a part, or not told at all. -/
theorem expectationText_ne (part : Part) (some : fault.expected ≠ []) :
    fault.expectationText ≠ "" ∧ fault.expectationText ≠ ", expected " ++ part.name := by
  rw [expectationText_listed fault some]
  refine ⟨by simp, ?_⟩
  intro same
  obtain ⟨one, _, rest, filled⟩ := (describes_expectations fault.expected).exists_cons some
  rw [String.append_right_inj, filled] at same
  have front := intercalate_front " or " one.describe rest
  rw [same] at front
  exact describe_not_front one part front

/-- The message names the descriptions or, with nothing expected, the part of the grammar
that was being read, as far as one is known.  Only with nothing expected does it read like
a message that names a part, or like one that ends behind what was found. -/
structure Words (texts : List String) (message : String) : Prop where
  listed : fault.expected ≠ [] →
    message = fault.opening ++ ", expected " ++ " or ".intercalate texts
  labelled : ∀ part, fault.expected = [] → fault.scope = .within part →
    message = fault.opening ++ ", expected " ++ part.name
  bare : fault.expected = [] → (∀ part, fault.scope ≠ .within part) → message = fault.opening
  only : (message = fault.opening ∨
    ∃ part : Part, message = fault.opening ++ ", expected " ++ part.name) → fault.expected = []

theorem words_message (unexpected : fault.reason = .unexpected) :
    fault.Words (expectations fault.expected) fault.message where
  listed := by
    intro some
    rw [fault.message_unexpected unexpected, fault.expectationText_listed some,
      String.append_assoc]
  labelled := by
    intro part none inside
    rw [fault.message_unexpected unexpected, fault.expectationText_labelled part none inside,
      String.append_assoc]
  bare := by
    intro none outside
    rw [fault.message_unexpected unexpected, fault.expectationText_bare none outside,
      String.append_empty]
  only := by
    rw [fault.message_unexpected unexpected]
    intro alike
    by_contra some
    rcases alike with nothing | ⟨part, label⟩
    · exact (fault.expectationText_ne .value some).1 (String.append_eq_left_iff.mp nothing)
    · rw [String.append_assoc, String.append_right_inj] at label
      exact (fault.expectationText_ne part some).2 label

theorem message_congr (listing : List Expected)
    (same : ∀ one, one ∈ listing ↔ one ∈ fault.expected) :
    { fault with expected := listing }.message = fault.message := by
  have names : expectations listing = expectations fault.expected :=
    ((describes_expectations fault.expected).unique (describes_expectations listing) same).symm
  have text : { fault with expected := listing }.expectationText = fault.expectationText := by
    simp only [expectationText, names]
  simp only [message, text]

end Fault

/-- A message on a token that does not fit depends on what was expected as a set.  It names
the descriptions of the expected tokens, each one once and in ascending order, and it names
none only if nothing was expected. -/
theorem expectations_unordered (place : Nat → Position) (fault : Fault)
    (listing : List Expected) (unexpected : fault.reason = .unexpected)
    (same : ∀ one, one ∈ listing ↔ one ∈ fault.expected) :
    { fault with expected := listing }.toRemark.toDiagnostic place =
        fault.toRemark.toDiagnostic place ∧
      ∃ texts, Describes fault.expected texts ∧
        texts =
          ((fault.expected.map Expected.describe).mergeSort (· ≤ ·)).destutter (· ≠ ·) ∧
        fault.Words texts (fault.toRemark.toDiagnostic place).message := by
  have described := describes_expectations fault.expected
  refine ⟨?_, _, described, ?_, fault.words_message unexpected⟩
  · simp only [Fault.toRemark, fault.message_congr listing same]
  · exact described.unique (describes_destutter fault.expected) fun _ => .rfl

/-- A parenthesis in the place of a value. -/
def misplaced : Fault where
  reach := 5
  start := 5
  reason := .unexpected
  expected := [.anyString, .token (.boolean true), .token .leftBracket, .anyIdentifier,
    .token (.identifier "True")]
  found := some .rightParen
  scope := .within .value

/-- What would have fitted there in another order, and partly twice. -/
def shuffled : List Expected :=
  [.token (.identifier "True"), .anyIdentifier, .token .leftBracket, .anyIdentifier, .anyString,
    .token (.boolean true), .token .leftBracket]

theorem expectations_unordered_repeated :
    misplaced.reason = .unexpected ∧
      (∀ one, one ∈ shuffled ↔ one ∈ misplaced.expected) ∧
      { misplaced with expected := shuffled }.message = misplaced.message ∧
      misplaced.message =
        "unexpected `)`, expected `True` or `[` or a string or an identifier" := by
  have same (one : Expected) : one ∈ shuffled ↔ one ∈ misplaced.expected := by
    have forth : shuffled ⊆ misplaced.expected := by decide
    have back : misplaced.expected ⊆ shuffled := by decide
    exact ⟨fun member => forth member, fun member => back member⟩
  obtain ⟨alike, _⟩ :=
    expectations_unordered (fun index => ⟨1, index + 1, index⟩) misplaced shuffled rfl same
  exact ⟨rfl, same, congrArg Diagnostic.message alike, by decide +kernel⟩

end BuildLang
