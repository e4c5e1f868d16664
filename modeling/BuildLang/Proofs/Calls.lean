import BuildLang.Proofs.Grammar.Statements
import BuildLang.Proofs.Grammar.Tidy
import BuildLang.Proofs.Layout.Bare
import BuildLang.Proofs.Tree.Arguments

/-!
# Arguments of calls

A call reads its arguments under any names, keeps the last one of each name that it
knows, and drops all others without a word.
-/

set_option autoImplicit false

namespace BuildLang

open BuildLang.Parser

/-! ## Arguments without places -/

/-- The argument that is written, without places. -/
def ArgumentForm.bare (form : ArgumentForm) : Argument Empty :=
  (form.written.tree 0).bare

theorem ArgumentForm.bare_tree (form : ArgumentForm) (start : Nat) :
    (form.written.tree start).bare = form.bare := by
  rw [bare, form.tidies.same start 0, form.tidies.same 0 0]

theorem bare_itemTrees (forms : List ArgumentForm) (start : Nat) :
    (Written.itemTrees start (forms.map ArgumentForm.written)).map Argument.bare =
      forms.map ArgumentForm.bare := by
  induction forms generalizing start with
  | nil => rfl
  | cons form others ih =>
    rw [List.map_cons, Written.itemTrees, List.map_cons, form.bare_tree, ih, List.map_cons]

theorem bare_arguments (form : ListForm ArgumentForm) (start : Nat) :
    ((Written.arguments form).tree start).map Argument.bare =
      form.items.map ArgumentForm.bare :=
  bare_itemTrees form.items (start + 1)

/-- The arguments of each of the names are the same in both lists and stand in the same
order.  An argument of another name may stand anywhere or be missing. -/
def SameOrder (names : List String) (forms others : List ArgumentForm) : Prop :=
  ∀ name ∈ names,
    forms.filter (fun form => form.name = name) = others.filter (fun form => form.name = name)

theorem SameOrder.lastNamed_eq {names : List String} {forms others : List ArgumentForm}
    (same : SameOrder names forms others) (name : String) (known : name ∈ names) :
    lastNamed name (forms.map ArgumentForm.bare) =
      lastNamed name (others.map ArgumentForm.bare) := by
  have order := same name known
  rw [lastNamed, lastNamed, lastOf_map, lastOf_map]
  exact congrArg (fun forms : List ArgumentForm => forms.getLast?.map _) order

theorem SameOrder.lastArguments_eq {names : List String} {forms others : List ArgumentForm}
    (same : SameOrder names forms others) :
    lastArguments names (forms.map ArgumentForm.bare) =
      lastArguments names (others.map ArgumentForm.bare) := by
  refine List.filterMap_congr ?_
  intro name known
  rw [same.lastNamed_eq name known]

theorem sameOrder_known (names : List String) (forms : List ArgumentForm) :
    SameOrder names forms (forms.filter fun form => form.name ∈ names) := by
  intro name known
  rw [List.filter_filter]
  refine List.filter_congr ?_
  intro form _
  by_cases same : form.name = name
  · simp [same, known]
  · simp [same]

/-! ## Package calls -/

section

variable {ν : Type}

variable (word : String) (names : List String) (get? : ν → String → Option (Value Nat))
  (entries : ν → List (Argument Nat))

/-- The nodes hold the same values, but for places, and are written the same. -/
structure SameSlots (node other : ν) : Prop where
  slots : ∀ name ∈ names,
    (get? node name).map Value.bare = (get? other name).map Value.bare
  layout : layoutCall word (entries node) = layoutCall word (entries other)
  printed : ∀ out : Emitter, out.writeCall word (entries node) = out.writeCall word (entries other)

/-- A call that has no fault to find with the names of its arguments and keeps the last one
of each of the given names.  The others might as well not be there, and only the order
within a name counts. -/
structure KeepsLast (call : Recovery → Parser ν) (written : ListForm ArgumentForm → Written ν) :
    Prop where
  reads : ∀ recovery form, ReadsWritten (call recovery) (written form) fun _ => True
  only : ∀ recovery, ReadsOnly (call recovery) written
  slots : ∀ form start, ∀ name ∈ names, get? ((written form).tree start) name =
    lastNamed name ((Written.arguments form).tree (start + 1))
  filled : ∀ form start, entries ((written form).tree start) =
    lastArguments names ((Written.arguments form).tree (start + 1))
  order : ∀ form other start stop, SameOrder names form.items other.items →
    SameSlots word names get? entries ((written form).tree start) ((written other).tree stop)
  strangers : ∀ form start stop, SameSlots word names get? entries
    ((written form).tree start)
    ((written ⟨form.items.filter fun item => item.name ∈ names, form.comma⟩).tree stop)

theorem Slots.keepsLast {κ : Type} [DecidableEq κ] {μ : Type → Type} (slots : Slots κ μ)
    (call : Recovery → Parser (μ Nat)) (written : ListForm ArgumentForm → Written (μ Nat))
    (tree : ∀ form start, (written form).tree start =
      slots.ofArguments (some start) ((Written.arguments form).tree (start + 1)))
    (reads : ∀ recovery form, ReadsWritten (call recovery) (written form) fun _ => True)
    (only : ∀ recovery, ReadsOnly (call recovery) written) :
    KeepsLast word (slots.all.map slots.key) slots.get? slots.entries call written := by
  have held (form : ListForm ArgumentForm) (start : Nat) (name : String)
      (known : name ∈ slots.all.map slots.key) :
      slots.get? ((written form).tree start) name =
        lastNamed name ((Written.arguments form).tree (start + 1)) := by
    rw [tree]
    exact slots.get?_ofArguments _ _ name known
  have filled (form : ListForm ArgumentForm) (start : Nat) :
      slots.entries ((written form).tree start) = lastArguments (slots.all.map slots.key)
        ((Written.arguments form).tree (start + 1)) := by
    rw [tree]
    exact slots.entries_ofArguments _ _
  -- Without places the arguments are what was written, wherever they stand.
  have bareHeld (form : ListForm ArgumentForm) (start : Nat) (name : String)
      (known : name ∈ slots.all.map slots.key) :
      (slots.get? ((written form).tree start) name).map Value.bare =
        lastNamed name (form.items.map ArgumentForm.bare) := by
    rw [held form start name known, ← bare_arguments form (start + 1)]
    exact (lastNamed_mapValue name Value.bare _).symm
  have bareFilled (form : ListForm ArgumentForm) (start : Nat) :
      (slots.entries ((written form).tree start)).map Argument.bare =
        lastArguments (slots.all.map slots.key) (form.items.map ArgumentForm.bare) := by
    rw [filled, ← bare_arguments form (start + 1)]
    exact (lastArguments_mapValue _ Value.bare _).symm
  have order (form other : ListForm ArgumentForm) (start stop : Nat)
      (same : SameOrder (slots.all.map slots.key) form.items other.items) :
      SameSlots word (slots.all.map slots.key) slots.get? slots.entries
        ((written form).tree start) ((written other).tree stop) := by
    have layout : layoutCall word (slots.entries ((written form).tree start)) =
        layoutCall word (slots.entries ((written other).tree stop)) := by
      rw [← layoutCall_bare word, bareFilled, same.lastArguments_eq, ← bareFilled other stop,
        layoutCall_bare]
    refine ⟨?_, layout, Emitter.writeCall_congr layout⟩
    intro name known
    rw [bareHeld form start name known, bareHeld other stop name known,
      same.lastNamed_eq name known]
  refine ⟨reads, only, held, filled, order, ?_⟩
  intro form start stop
  exact order form _ start stop (sameOrder_known _ form.items)

end

theorem package_keepsLast :
    KeepsLast "package"
      ["default_visibility", "default_deprecation", "default_testonly", "features"]
      Package.get? Package.entries Parser.package Written.package :=
  Package.slots.keepsLast "package" Parser.package Written.package (fun _ _ => rfl)
    (fun recovery form => readsWritten_package recovery form) readsOnly_package

theorem packageGroup_keepsLast :
    KeepsLast "package_group" ["name", "packages", "includes"] PackageGroup.get?
      PackageGroup.entries Parser.packageGroup Written.packageGroup :=
  PackageGroup.slots.keepsLast "package_group" Parser.packageGroup Written.packageGroup
    (fun _ _ => rfl) (fun recovery form => readsWritten_packageGroup recovery form)
    readsOnly_packageGroup

/-- Each field of a package holds the last argument of its name. -/
structure Package.HoldsLast {π : Type} (arguments : List (Argument π)) (package : Package π) :
    Prop where
  defaultVisibility : package.defaultVisibility = lastNamed "default_visibility" arguments
  defaultDeprecation : package.defaultDeprecation = lastNamed "default_deprecation" arguments
  defaultTestonly : package.defaultTestonly = lastNamed "default_testonly" arguments
  features : package.features = lastNamed "features" arguments

/-- Each field of a package group holds the last argument of its name. -/
structure PackageGroup.HoldsLast {π : Type} (arguments : List (Argument π))
    (group : PackageGroup π) : Prop where
  name : group.name = lastNamed "name" arguments
  packages : group.packages = lastNamed "packages" arguments
  includes : group.includes = lastNamed "includes" arguments

theorem Package.holdsLast_ofArguments {π : Type} (position : Option π)
    (arguments : List (Argument π)) : (ofArguments position arguments).HoldsLast arguments where
  defaultVisibility := slots.get_ofArguments position arguments .defaultVisibility
  defaultDeprecation := slots.get_ofArguments position arguments .defaultDeprecation
  defaultTestonly := slots.get_ofArguments position arguments .defaultTestonly
  features := slots.get_ofArguments position arguments .features

theorem PackageGroup.holdsLast_ofArguments {π : Type} (position : Option π)
    (arguments : List (Argument π)) : (ofArguments position arguments).HoldsLast arguments where
  name := slots.get_ofArguments position arguments .name
  packages := slots.get_ofArguments position arguments .packages
  includes := slots.get_ofArguments position arguments .includes

/-! ## Globs -/

/-- `patterns | IDENT = patterns`, with the name kept -/
def GlobArgumentForm.list : GlobArgumentForm → Written (GlobList Nat)
  | .plain patterns => (Written.patterns patterns).map fun patterns => ⟨none, patterns⟩
  | .named name patterns =>
      (((Written.name name).before [.equals]).seq (Written.patterns patterns)).map
        fun pair => ⟨some pair.1, pair.2⟩

theorem GlobArgumentForm.written_list (form : GlobArgumentForm) :
    form.written = form.list.map GlobList.argument := by
  cases form <;> rfl

/-- The lists of a glob in parentheses. -/
def Written.globLists (form : ListForm GlobArgumentForm) : Written (List (GlobList Nat)) :=
  (form.written .allowed GlobArgumentForm.list).between .leftParen .rightParen

theorem itemTrees_globLists (forms : List GlobArgumentForm) (start : Nat) :
    Written.itemTrees start (forms.map GlobArgumentForm.written) =
      (Written.itemTrees start (forms.map GlobArgumentForm.list)).map GlobList.argument := by
  induction forms generalizing start with
  | nil => rfl
  | cons form others ih =>
    simp only [List.map_cons, Written.itemTrees]
    rw [form.written_list, ih]
    rfl

theorem tree_glob (form : ListForm GlobArgumentForm) (start : Nat) :
    (Written.glob form).tree start =
      Glob.ofArguments (some start)
        (((Written.globLists form).tree (start + 1)).map GlobList.argument) :=
  congrArg (Glob.ofArguments (some start)) (itemTrees_globLists form.items (start + 1 + 1))

/-- A glob has no fault to find with the names of its lists.  It includes the last list that
has no name or the name `include` in whatever letter case, and excludes the last one of any
other name. -/
structure GlobKeepsLast : Prop where
  reads : ∀ form, ReadsWritten glob (Written.glob form) fun _ => True
  only : ReadsOnly glob Written.glob
  includes : ∀ form start, ((Written.glob form).tree start).includes =
    lastOf GlobList.isInclude GlobList.patterns ((Written.globLists form).tree (start + 1))
  excludes : ∀ form start, ((Written.glob form).tree start).excludes =
    lastOf (fun list => !list.isInclude) GlobList.patterns
      ((Written.globLists form).tree (start + 1))

theorem glob_keepsLast : GlobKeepsLast where
  reads form := readsWritten_glob form
  only := readsOnly_glob
  includes form start := by
    rw [tree_glob]
    exact Glob.includes_ofArguments _ _
  excludes form start := by
    rw [tree_glob]
    exact Glob.excludes_ofArguments _ _

/-- Of the arguments that a call knows the last one of each kind is the one that counts, and
it is found in the field of its name. -/
theorem last_arguments_win :
    KeepsLast "package"
        ["default_visibility", "default_deprecation", "default_testonly", "features"]
        Package.get? Package.entries Parser.package Written.package ∧
      (∀ form start, ((Written.package form).tree start).HoldsLast
        ((Written.arguments form).tree (start + 1))) ∧
      KeepsLast "package_group" ["name", "packages", "includes"] PackageGroup.get?
        PackageGroup.entries Parser.packageGroup Written.packageGroup ∧
      (∀ form start, ((Written.packageGroup form).tree start).HoldsLast
        ((Written.arguments form).tree (start + 1))) ∧
      GlobKeepsLast :=
  ⟨package_keepsLast, fun _ _ => Package.holdsLast_ofArguments _ _, packageGroup_keepsLast,
    fun _ _ => PackageGroup.holdsLast_ofArguments _ _, glob_keepsLast⟩

/-- `package(features = a, other = b, features = c,)` -/
def repeated : ListForm ArgumentForm where
  items := [⟨"features", .identifier "a"⟩, ⟨"other", .identifier "b"⟩,
    ⟨"features", .identifier "c"⟩]
  comma := true

theorem last_arguments_win_repeated : ∃ node : Package Nat,
    Reads (Parser.package .on) ⟨0, (Written.package repeated).tokens⟩ [] node ⟨15, []⟩ ∧
      node.get? "features" = some (.identifier ⟨"c", some 12⟩) ∧
      node.get? "default_testonly" = none ∧
      node.features = some (.identifier ⟨"c", some 12⟩) ∧ node.defaultTestonly = none := by
  obtain ⟨called, fields, _⟩ := last_arguments_win
  have spans : Spans ⟨0, (Written.package repeated).tokens⟩ (Written.package repeated).tokens
      ⟨15, []⟩ := ⟨(List.append_nil _).symm, rfl⟩
  refine ⟨_, called.reads .on repeated _ _ spans trivial, ?_, ?_, ?_, ?_⟩
  · rw [called.slots repeated 0 "features" (by decide)]
    rfl
  · rw [called.slots repeated 0 "default_testonly" (by decide)]
    rfl
  · exact (fields repeated 0).features
  · exact (fields repeated 0).defaultTestonly

end BuildLang
