import BuildLang.Proofs.Segments

/-!
# Statements out of place

A statement is remarked on exactly if it stands behind one that bars it: one of a
later phase, or of its own where that phase takes only one.  Each such statement gets
one remark, and all statements enter the tree.
-/

set_option autoImplicit false

namespace BuildLang

namespace Phase

/-- Whether a statement of the `earlier` phase keeps any of the `later` one from
standing behind it: its rank is higher, or both are of one kind of package call. -/
def Bars (earlier later : Phase) : Prop :=
  later.rank < earlier.rank ∨ earlier = later ∧ (later = .package ∨ later = .packageGroup)

instance (earlier later : Phase) : Decidable (earlier.Bars later) :=
  inferInstanceAs (Decidable (_ ∨ _))

theorem bars_iff (earlier later : Phase) : earlier.Bars later ↔ ¬ earlier.Admits later := by
  cases earlier <;> cases later <;> decide

/-- What both phases admit is admitted by the later one of them. -/
theorem later_admits (first second third : Phase) :
    (first.later second).Admits third ↔ first.Admits third ∧ second.Admits third := by
  cases first <;> cases second <;> cases third <;> decide

end Phase

namespace Step

/-- Skipped input has no phase, so it bars nothing and is not barred. -/
def Bars (earlier later : Step) : Prop :=
  ∃ before ∈ earlier.statement.phase?, ∃ phase ∈ later.statement.phase?, before.Bars phase

instance (earlier later : Step) : Decidable (earlier.Bars later) :=
  inferInstanceAs (Decidable (∃ before ∈ earlier.statement.phase?,
    ∃ phase ∈ later.statement.phase?, before.Bars phase))

/-- Some step of those in front bars it. -/
def BarredBy (step : Step) (front : List Step) : Prop :=
  ∃ earlier ∈ front, earlier.Bars step

instance (step : Step) (front : List Step) : Decidable (step.BarredBy front) :=
  inferInstanceAs (Decidable (∃ earlier ∈ front, earlier.Bars step))

/-- The remark stands at the first token of the step and names its statement. -/
def Gets (step : Step) (remark : Remark) : Prop :=
  remark.start = step.start ∧
    ∃ misplacement : Misplacement, remark.message = misplacement.message step.statement.describe

end Step

/-- The steps that an earlier one bars, in order. -/
def misplacedSteps (steps : List Step) : List Step :=
  (steps.zipIdx.filter fun pair => pair.1.BarredBy (steps.take pair.2)).map Prod.fst

theorem misplacedSteps_snoc (steps : List Step) (step : Step) :
    misplacedSteps (steps ++ [step]) =
      misplacedSteps steps ++ if step.BarredBy steps then [step] else [] := by
  -- What stands in front of a step is not changed by one more step at the end.
  have front : steps.zipIdx.filter (fun pair =>
        pair.1.BarredBy ((steps ++ [step]).take pair.2)) =
      steps.zipIdx.filter fun pair => pair.1.BarredBy (steps.take pair.2) := by
    refine List.filter_congr ?_
    intro pair member
    have inside : pair.2 < steps.length := List.snd_lt_of_mem_zipIdx member
    rw [List.take_append_of_le_length (Nat.le_of_lt inside)]
  unfold misplacedSteps
  rw [List.zipIdx_append, List.filter_append, List.map_append, front]
  by_cases barred : step.BarredBy steps
  · simp [barred]
  · simp [barred]

theorem assemble_snoc (steps : List Step) (step : Step) :
    assemble (steps ++ [step]) = (assemble steps).add step :=
  List.foldl_concat _ _ _ _

theorem assemble_coherent (steps : List Step) : (assemble steps).Coherent := by
  induction steps using List.reverseRecOn with
  | nil => exact Assembly.coherent_start
  | append_singleton steps step ih =>
    rw [assemble_snoc]
    exact Assembly.coherent_add _ step ih

/-- The phase of an assembly admits what the phases of all its statements do. -/
theorem assemble_admits (steps : List Step) (later : Phase) :
    (assemble steps).phase.Admits later ↔
      ∀ step ∈ steps, ∀ before ∈ step.statement.phase?, before.Admits later := by
  induction steps using List.reverseRecOn with
  | nil => simpa [assemble] using Phase.loads_admits later
  | append_singleton steps step ih =>
    rw [assemble_snoc, List.forall_mem_append, List.forall_mem_singleton, ← ih]
    cases known : step.statement.phase? with
    | none => simp [Assembly.add, known]
    | some phase =>
      simp only [Assembly.add, known, Phase.later_admits, Option.mem_def, Option.some.injEq,
        forall_eq']

/-- A statement behind some steps is in place if none of them bars it. -/
theorem misplacement_iff (steps : List Step) (step : Step) :
    (assemble steps).misplacement? step.statement = none ↔ ¬ step.BarredBy steps := by
  rw [Assembly.inPlace_iff _ (assemble_coherent steps)]
  simp only [assemble_admits, Step.BarredBy, Step.Bars, Phase.bars_iff, not_exists, not_and,
    not_not]
  constructor
  · intro inPlace earlier member before known phase found
    exact inPlace phase found earlier member before known
  · intro inPlace phase found earlier member before known
    exact inPlace earlier member before known phase found

/-- One remark for each barred step, in order. -/
theorem remarks_misplaced (steps : List Step) :
    List.Forall₂ Step.Gets (misplacedSteps steps) (assemble steps).remarks := by
  induction steps using List.reverseRecOn with
  | nil => exact .nil
  | append_singleton steps step ih =>
    rw [assemble_snoc, misplacedSteps_snoc, Assembly.add]
    have inPlace := misplacement_iff steps step
    cases found : (assemble steps).misplacement? step.statement with
    | none =>
      rw [if_neg (inPlace.mp found)]
      simpa using ih
    | some misplacement =>
      have barred : step.BarredBy steps := by
        by_contra free
        rw [inPlace.mpr free] at found
        cases found
      rw [if_pos barred]
      exact List.rel_append ih (.cons ⟨rfl, misplacement, rfl⟩ .nil)

/-! ## The shape of a row in place -/

/-- `load* body* package? package_group?` -/
def InShape (phases : List Phase) : Prop :=
  ∃ loads body : Nat, ∃ package packageGroup : Bool,
    phases = List.replicate loads .loads ++ List.replicate body .body ++
      (if package then [.package] else []) ++ (if packageGroup then [.packageGroup] else [])

theorem InShape.inOrder {phases : List Phase} (shape : InShape phases) :
    phases.Pairwise Phase.Admits := by
  obtain ⟨loads, body, package, packageGroup, rfl⟩ := shape
  cases package <;> cases packageGroup <;>
    simp [List.pairwise_append, List.pairwise_replicate, or_imp, forall_and, Phase.Admits,
      Phase.rank]

/-- A phase in front of a shape stays one if it admits all that follows. -/
theorem InShape.cons {first : Phase} {rest : List Phase} (shape : InShape rest)
    (admits : ∀ phase ∈ rest, first.Admits phase) : InShape (first :: rest) := by
  obtain ⟨loads, body, package, packageGroup, rfl⟩ := shape
  have noLoads (late : ¬ first.Admits .loads) : loads = 0 := by
    by_contra some
    exact late (admits .loads (by simp [some]))
  have noBody (late : ¬ first.Admits .body) : body = 0 := by
    by_contra some
    exact late (admits .body (by simp [some]))
  have noPackage (late : ¬ first.Admits .package) : package = false := by
    by_contra some
    exact late (admits .package (by simp [some]))
  have noGroup (late : ¬ first.Admits .packageGroup) : packageGroup = false := by
    by_contra some
    exact late (admits .packageGroup (by simp [some]))
  cases first with
  | loads => exact ⟨loads + 1, body, package, packageGroup, by simp [List.replicate_succ]⟩
  | body =>
    obtain rfl := noLoads (by decide)
    exact ⟨0, body + 1, package, packageGroup, by simp [List.replicate_succ]⟩
  | package =>
    obtain rfl := noLoads (by decide)
    obtain rfl := noBody (by decide)
    obtain rfl := noPackage (by decide)
    exact ⟨0, 0, true, packageGroup, by simp⟩
  | packageGroup =>
    obtain rfl := noLoads (by decide)
    obtain rfl := noBody (by decide)
    obtain rfl := noPackage (by decide)
    obtain rfl := noGroup (by decide)
    exact ⟨0, 0, false, true, by simp⟩

theorem inShape_iff (phases : List Phase) :
    InShape phases ↔ phases.Pairwise Phase.Admits := by
  constructor
  · exact InShape.inOrder
  · intro inOrder
    induction phases with
    | nil => exact ⟨0, 0, false, false, rfl⟩
    | cons first rest ih =>
      obtain ⟨admits, rest⟩ := List.pairwise_cons.mp inOrder
      exact (ih rest).cons admits

open Segment

/-- Placement is checked exactly.  Of statements and junk in a row, each is one step that
begins at its first token.  Whatever the steps, there is one remark for each that an
earlier one bars, in order and at its first token, and there are no others; all
statements enter the tree, where of the calls that a file has room for once the last one
stays; and there is nothing to remark exactly if the row has the shape of a file. -/
theorem assemble_exact (steps : List Step) :
    (∀ segments : List Segment, segments.IsChain MayPrecede →
      (readSteps .on (segments.flatMap tokens)).1 = some (Segment.steps 0 segments)) ∧
    List.Forall₂ Step.Gets (misplacedSteps steps) (assemble steps).remarks ∧
    (assemble steps).file = .ofStatements (steps.map Step.statement) ∧
    ((assemble steps).remarks = [] ↔
      InShape (steps.filterMap fun step => step.statement.phase?)) := by
  refine ⟨?_, remarks_misplaced steps, assemble_file steps, ?_⟩
  · intro segments apart
    obtain ⟨faults, read, _⟩ := readSteps_segments segments apart
    rw [read]
  · rw [inShape_iff, assemble_inPlace]

end BuildLang
