import BuildLang.Placement
import BuildLang.Proofs.Grammar.Form

/-!
# Statements in place

No statement is remarked on exactly if each stands behind statements that it may
stand behind, which is what the shape of a file says.  What is gathered does not
depend on that.
-/

set_option autoImplicit false

namespace BuildLang

namespace Phase

/-- Whether a statement of the `later` phase may stand behind one of the `earlier`:
loads and the body may go on, the package calls come once. -/
def Admits (earlier later : Phase) : Prop :=
  earlier.rank < later.rank ∨ earlier = later ∧ later.rank < Phase.package.rank

instance (earlier later : Phase) : Decidable (earlier.Admits later) :=
  inferInstanceAs (Decidable (_ ∨ _))

theorem admits_trans (first second third : Phase) (left : first.Admits second)
    (right : second.Admits third) : first.Admits third := by
  unfold Admits at left right ⊢
  rcases left with less | ⟨rfl, low⟩
  · rcases right with greater | ⟨rfl, low⟩
    · exact .inl (Nat.lt_trans less greater)
    · exact .inl less
  · exact right

theorem loads_admits (phase : Phase) : Phase.loads.Admits phase := by
  cases phase <;> decide

theorem admits_loads (phase : Phase) :
    phase.Admits .loads ↔ ¬ Phase.loads.rank < phase.rank := by
  cases phase <;> decide

theorem admits_body (phase : Phase) : phase.Admits .body ↔ ¬ Phase.body.rank < phase.rank := by
  cases phase <;> decide

theorem admits_package (phase : Phase) :
    phase.Admits .package ↔ phase.rank < Phase.package.rank := by
  cases phase <;> decide

theorem admits_packageGroup (phase : Phase) :
    phase.Admits .packageGroup ↔ phase.rank < Phase.packageGroup.rank := by
  cases phase <;> decide

theorem rank_later (first second : Phase) :
    (first.later second).rank = max first.rank second.rank := by
  cases first <;> cases second <;> rfl

theorem rank_le (phase : Phase) : phase.rank ≤ Phase.packageGroup.rank := by
  cases phase <;> decide

theorem later_of_admits (earlier later : Phase) (admits : earlier.Admits later) :
    earlier.later later = later := by
  rcases admits with less | ⟨rfl, _⟩
  · exact if_pos less
  · exact if_neg (Nat.lt_irrefl _)

end Phase

namespace Assembly

/-- What the phase tells about the calls seen so far. -/
structure Coherent (assembly : Assembly) : Prop where
  packageSeen : assembly.phase.rank = Phase.package.rank → assembly.file.package.isSome = true
  packageLate : assembly.file.package.isSome = true →
    Phase.package.rank ≤ assembly.phase.rank
  groupSeen : assembly.phase.rank = Phase.packageGroup.rank ↔
    assembly.file.packageGroup.isSome = true

theorem coherent_start : Coherent {} where
  packageSeen := by simp [Phase.rank]
  packageLate := by simp
  groupSeen := by simp [Phase.rank]

/-- A statement of an early phase leaves the package calls alone. -/
theorem coherent_early (assembly next : Assembly) (phase : Phase)
    (early : phase.rank < Phase.package.rank) (coherent : assembly.Coherent)
    (rank : next.phase.rank = max assembly.phase.rank phase.rank)
    (package : next.file.package = assembly.file.package)
    (packageGroup : next.file.packageGroup = assembly.file.packageGroup) : next.Coherent := by
  obtain ⟨seen, late, group⟩ := coherent
  have low : phase.rank < 2 := early
  have packageRank : Phase.package.rank = 2 := rfl
  have groupRank : Phase.packageGroup.rank = 3 := rfl
  rw [packageRank] at seen late
  rw [groupRank] at group
  constructor
  · intro same
    rw [package]
    exact seen (by omega)
  · intro found
    rw [package] at found
    have before := late found
    omega
  · rw [packageGroup, ← group]
    omega

theorem rank_add (assembly : Assembly) (step : Step) (phase : Phase)
    (known : step.statement.phase? = some phase) :
    (assembly.add step).phase.rank = max assembly.phase.rank phase.rank := by
  simp only [Assembly.add, known]
  exact Phase.rank_later assembly.phase phase

theorem coherent_add (assembly : Assembly) (step : Step) (coherent : assembly.Coherent) :
    (assembly.add step).Coherent := by
  obtain ⟨start, stop, statement⟩ := step
  cases statement with
  | load node =>
    exact coherent_early assembly _ .loads (by decide) coherent (rank_add assembly _ _ rfl) rfl rfl
  | rule node =>
    exact coherent_early assembly _ .body (by decide) coherent (rank_add assembly _ _ rfl) rfl rfl
  | declaration node =>
    exact coherent_early assembly _ .body (by decide) coherent (rank_add assembly _ _ rfl) rfl rfl
  | exportsFiles node =>
    exact coherent_early assembly _ .body (by decide) coherent (rank_add assembly _ _ rfl) rfl rfl
  | skipped => exact ⟨coherent.packageSeen, coherent.packageLate, coherent.groupSeen⟩
  | package node =>
    have rank : (assembly.add ⟨start, stop, .package node⟩).phase.rank =
        max assembly.phase.rank Phase.package.rank := rank_add assembly _ _ rfl
    have packageRank : Phase.package.rank = 2 := rfl
    have groupRank : Phase.packageGroup.rank = 3 := rfl
    refine ⟨fun _ => rfl, fun _ => ?_, ?_⟩
    · rw [rank]
      exact Nat.le_max_right _ _
    · have group : (assembly.add ⟨start, stop, .package node⟩).file.packageGroup =
          assembly.file.packageGroup := rfl
      rw [group, ← coherent.groupSeen, rank]
      omega
  | packageGroup node =>
    have rank : (assembly.add ⟨start, stop, .packageGroup node⟩).phase.rank =
        Phase.packageGroup.rank :=
      (rank_add assembly _ _ rfl).trans (Nat.max_eq_right (Phase.rank_le _))
    refine ⟨fun same => ?_, fun _ => ?_, fun _ => rfl, fun _ => rank⟩
    · rw [rank] at same
      cases same
    · rw [rank]
      decide

/-- A statement is in place if the phase so far admits its own. -/
theorem inPlace_iff (assembly : Assembly) (coherent : assembly.Coherent)
    (statement : Statement Nat) :
    assembly.misplacement? statement = none ↔
      ∀ phase ∈ statement.phase?, assembly.phase.Admits phase := by
  have packageRank : Phase.package.rank = 2 := rfl
  have groupRank : Phase.packageGroup.rank = 3 := rfl
  -- Coherence ties the duplicates to the phase; the rest is a matter of ranks.
  cases statement with
  | load node => simp [misplacement?, Statement.phase?, Phase.admits_loads]
  | rule node => simp [misplacement?, Statement.phase?, Phase.admits_body]
  | declaration node => simp [misplacement?, Statement.phase?, Phase.admits_body]
  | exportsFiles node => simp [misplacement?, Statement.phase?, Phase.admits_body]
  | skipped => simp [misplacement?, Statement.phase?]
  | package node =>
    have seen := coherent.packageSeen
    have late := coherent.packageLate
    cases found : assembly.file.package.isSome with
    | true =>
      have high := late found
      simp [misplacement?, Statement.phase?, Phase.admits_package, found, high]
    | false =>
      have different : assembly.phase.rank ≠ Phase.package.rank := by
        intro same
        rw [found] at seen
        exact Bool.false_ne_true (seen same)
      simp only [misplacement?, Statement.phase?, found, Option.mem_def, Option.some.injEq,
        forall_eq', Phase.admits_package, Bool.false_eq_true, if_false]
      split
      · simp only [reduceCtorEq, false_iff]
        omega
      · simp only [true_iff]
        omega
  | packageGroup node =>
    have seen := coherent.groupSeen
    have bound := Phase.rank_le assembly.phase
    cases found : assembly.file.packageGroup.isSome with
    | true =>
      have same := seen.mpr found
      simp [misplacement?, Statement.phase?, Phase.admits_packageGroup, found, same]
    | false =>
      have different : assembly.phase.rank ≠ Phase.packageGroup.rank := by
        intro same
        rw [found] at seen
        exact Bool.false_ne_true (seen.mp same)
      have less : assembly.phase.rank < Phase.packageGroup.rank := by omega
      simp [misplacement?, Statement.phase?, Phase.admits_packageGroup, found, less]

theorem phase_add (assembly : Assembly) (step : Step) (phase : Phase)
    (known : step.statement.phase? = some phase) (admits : assembly.phase.Admits phase) :
    (assembly.add step).phase = phase := by
  simp only [Assembly.add, known]
  exact Phase.later_of_admits assembly.phase phase admits

theorem remarks_add (assembly : Assembly) (step : Step) :
    (assembly.add step).remarks = [] ↔
      assembly.remarks = [] ∧ assembly.misplacement? step.statement = none := by
  simp [Assembly.add]

theorem remarks_foldl (steps : List Step) (assembly : Assembly) (coherent : assembly.Coherent) :
    (steps.foldl Assembly.add assembly).remarks = [] ↔ assembly.remarks = [] ∧
      (assembly.phase :: steps.filterMap (fun step => step.statement.phase?)).Pairwise
        Phase.Admits := by
  induction steps generalizing assembly with
  | nil => simp
  | cons step rest ih =>
    rw [List.foldl_cons, ih _ (coherent_add assembly step coherent), remarks_add,
      inPlace_iff assembly coherent, List.filterMap_cons]
    cases known : step.statement.phase? with
    | none =>
      have same : (assembly.add step).phase = assembly.phase := by simp [Assembly.add, known]
      simp [same]
    | some phase =>
      simp only [Option.mem_def, Option.some.injEq, forall_eq', List.pairwise_cons,
        List.mem_cons, forall_eq_or_imp, and_assoc, and_congr_right_iff]
      intro _ admits
      rw [phase_add assembly step phase known admits]
      constructor
      · rintro ⟨first, others⟩
        exact ⟨fun later member => Phase.admits_trans _ _ _ admits (first later member), first,
          others⟩
      · rintro ⟨_, first, others⟩
        exact ⟨first, others⟩

end Assembly

/-- There is nothing to remark exactly if every two statements are in order. -/
theorem assemble_inPlace (steps : List Step) :
    (assemble steps).remarks = [] ↔
      (steps.filterMap fun step => step.statement.phase?).Pairwise Phase.Admits := by
  rw [assemble, Assembly.remarks_foldl steps {} Assembly.coherent_start, List.pairwise_cons]
  simp [Phase.loads_admits]

/-! ## What is gathered -/

theorem file_foldl (steps : List Step) (assembly : Assembly) :
    (steps.foldl Assembly.add assembly).file =
      (steps.map Step.statement).foldl BuildFile.add assembly.file := by
  induction steps generalizing assembly with
  | nil => rfl
  | cons step rest ih => rw [List.foldl_cons, ih, List.map_cons, List.foldl_cons, Assembly.add]

theorem BuildFile.ofStatements_append {π : Type} (statements : List (Statement π))
    (statement : Statement π) :
    ofStatements (statements ++ [statement]) = (ofStatements statements).add statement := by
  cases statement <;> simp [ofStatements, BuildFile.add]

/-- Gathering statement by statement. -/
theorem BuildFile.foldl_add (statements : List (Statement Nat)) :
    statements.foldl BuildFile.add {} = ofStatements statements := by
  have fold (done rest : List (Statement Nat)) :
      rest.foldl BuildFile.add (ofStatements done) = ofStatements (done ++ rest) := by
    induction rest generalizing done with
    | nil => rw [List.foldl_nil, List.append_nil]
    | cons statement rest ih =>
      rw [List.foldl_cons, ← ofStatements_append, ih, List.append_assoc,
        List.singleton_append]
  exact fold [] statements

theorem assemble_file (steps : List Step) :
    (assemble steps).file = BuildFile.ofStatements (steps.map Step.statement) := by
  rw [assemble, file_foldl]
  exact BuildFile.foldl_add _

/-! ## The shape of a file -/

def StatementForm.phase : StatementForm → Phase
  | .load _ => .loads
  | .body _ => .body
  | .package _ => .package
  | .packageGroup _ => .packageGroup

theorem StatementForm.phase_tree (form : StatementForm) (start : Nat) :
    (form.written.tree start).phase? = some form.phase := by
  match form with
  | .load _ => rfl
  | .body (.rule _) => rfl
  | .body (.declaration _) => rfl
  | .body (.exportsFiles _) => rfl
  | .package _ => rfl
  | .packageGroup _ => rfl

theorem FileForm.phases (form : FileForm) :
    form.statements.map StatementForm.phase =
      List.replicate form.loads.length .loads ++ List.replicate form.body.length .body ++
        (form.package.map fun _ => Phase.package).toList ++
        (form.packageGroup.map fun _ => Phase.packageGroup).toList := by
  obtain ⟨loads, body, package, packageGroup⟩ := form
  cases package <;> cases packageGroup <;>
    simp [statements, Function.comp_def, StatementForm.phase, List.map_const']

theorem FileForm.inOrder (form : FileForm) :
    (form.statements.map StatementForm.phase).Pairwise Phase.Admits := by
  rw [FileForm.phases]
  cases form.package <;> cases form.packageGroup <;>
    simp [List.pairwise_append, List.pairwise_replicate, or_imp, forall_and, Phase.Admits,
      Phase.rank]

/-- Statements in order make up a file. -/
theorem FileForm.of_inOrder (forms : List StatementForm)
    (inOrder : (forms.map StatementForm.phase).Pairwise Phase.Admits) :
    ∃ form : FileForm, form.statements = forms := by
  induction forms with
  | nil => exact ⟨⟨[], [], none, none⟩, rfl⟩
  | cons first rest ih =>
    rw [List.map_cons, List.pairwise_cons] at inOrder
    obtain ⟨admits, inOrder⟩ := inOrder
    obtain ⟨⟨loads, body, package, packageGroup⟩, rfl⟩ := ih inOrder
    rw [FileForm.phases] at admits
    -- What the first statement does not admit is missing in the rest.
    have noLoads (late : ¬ first.phase.Admits .loads) : loads = [] := by
      cases loads with
      | nil => rfl
      | cons load others => exact absurd (admits .loads (by simp)) late
    have noBody (late : ¬ first.phase.Admits .body) : body = [] := by
      cases body with
      | nil => rfl
      | cons item others => exact absurd (admits .body (by simp)) late
    have noPackage (late : ¬ first.phase.Admits .package) : package = none := by
      cases package with
      | none => rfl
      | some call => exact absurd (admits .package (by simp)) late
    have noGroup (late : ¬ first.phase.Admits .packageGroup) : packageGroup = none := by
      cases packageGroup with
      | none => rfl
      | some call => exact absurd (admits .packageGroup (by simp)) late
    cases first with
    | load form => exact ⟨⟨form :: loads, body, package, packageGroup⟩, rfl⟩
    | body form =>
      obtain rfl := noLoads (by decide : ¬ Phase.body.Admits .loads)
      exact ⟨⟨[], form :: body, package, packageGroup⟩, rfl⟩
    | package form =>
      obtain rfl := noLoads (by decide : ¬ Phase.package.Admits .loads)
      obtain rfl := noBody (by decide : ¬ Phase.package.Admits .body)
      obtain rfl := noPackage (by decide : ¬ Phase.package.Admits .package)
      exact ⟨⟨[], [], some form, packageGroup⟩, rfl⟩
    | packageGroup form =>
      obtain rfl := noLoads (by decide : ¬ Phase.packageGroup.Admits .loads)
      obtain rfl := noBody (by decide : ¬ Phase.packageGroup.Admits .body)
      obtain rfl := noPackage (by decide : ¬ Phase.packageGroup.Admits .package)
      obtain rfl := noGroup (by decide : ¬ Phase.packageGroup.Admits .packageGroup)
      exact ⟨⟨[], [], none, some form⟩, rfl⟩

end BuildLang
