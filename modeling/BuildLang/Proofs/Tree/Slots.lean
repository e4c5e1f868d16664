import BuildLang.Proofs.Tree.Bare
import Mathlib.Data.List.Induction

/-!
# Slots

A call stores each argument over the earlier ones of its name, so that a slot holds in the
end what the last of them gave.  A node is its slots and its place, and all that is true of
calls with slots is shown here for whatever slots they have.
-/

set_option autoImplicit false

namespace BuildLang

section

variable {α β σ : Type}

/-- What the last item of a kind holds, if there is an item of that kind. -/
def lastOf (kind : α → Bool) (value : α → β) (items : List α) : Option β :=
  (items.filter kind).getLast?.map value

theorem lastOf_append (kind : α → Bool) (value : α → β) (items : List α) (item : α) :
    lastOf kind value (items ++ [item]) =
      if kind item = true then some (value item) else lastOf kind value items := by
  cases found : kind item with
  | false => simp [lastOf, List.filter_append, found]
  | true => simp [lastOf, List.filter_append, found]

theorem lastOf_map (kind : β → Bool) (value : β → σ) (f : α → β) (items : List α) :
    lastOf kind value (items.map f) = lastOf (kind ∘ f) (value ∘ f) items := by
  rw [lastOf, List.filter_map, List.getLast?_map, Option.map_map]
  rfl

/-- A slot that every item of its kind is stored in, and no other one, holds the last of
them. -/
theorem foldl_lastOf (store : σ → α → σ) (get : σ → Option β) (kind : α → Bool) (value : α → β)
    (stores : ∀ state item,
      get (store state item) = if kind item = true then some (value item) else get state)
    (state : σ) (empty : get state = none) (items : List α) :
    get (items.foldl store state) = lastOf kind value items := by
  induction items using List.reverseRecOn with
  | nil => exact empty
  | append_singleton earlier item ih =>
    rw [List.foldl_append, List.foldl_cons, List.foldl_nil, stores, ih, lastOf_append]

end

variable {π ρ : Type}

/-- The value of the last argument of the given name. -/
def lastNamed (name : String) (arguments : List (Argument π)) : Option (Value π) :=
  lastOf (fun argument => argument.name = name) Argument.value arguments

/-- The last argument of each of the names, in the order of the names. -/
def lastArguments (names : List String) (arguments : List (Argument π)) : List (Argument π) :=
  names.filterMap fun name => (lastNamed name arguments).map (Argument.mk name)

theorem lastNamed_mem {name : String} {arguments : List (Argument π)} {value : Value π}
    (found : lastNamed name arguments = some value) : ⟨name, value⟩ ∈ arguments := by
  obtain ⟨argument, last, rfl⟩ := Option.map_eq_some_iff.mp found
  obtain ⟨member, named⟩ := List.mem_filter.mp (List.mem_of_getLast? last)
  obtain rfl := of_decide_eq_true named
  exact member

/-- If the arguments of a name hold one value at most, then that is the last one. -/
theorem lastNamed_eq_some {name : String} {arguments : List (Argument π)} {value : Value π}
    (member : ⟨name, value⟩ ∈ arguments)
    (only : ∀ other, ⟨name, other⟩ ∈ arguments → other = value) :
    lastNamed name arguments = some value := by
  cases found : lastNamed name arguments with
  | some other => rw [only other (lastNamed_mem found)]
  | none =>
    have nothing := List.getLast?_eq_none_iff.mp (Option.map_eq_none_iff.mp found)
    exact absurd (decide_eq_true rfl) (List.filter_eq_nil_iff.mp nothing _ member)

theorem lastNamed_eq_none {name : String} {arguments : List (Argument π)}
    (none : ∀ value, ⟨name, value⟩ ∉ arguments) : lastNamed name arguments = Option.none := by
  cases found : lastNamed name arguments with
  | none => rfl
  | some value => exact absurd (lastNamed_mem found) (none value)

def Argument.mapValue (f : Value π → Value ρ) (argument : Argument π) : Argument ρ :=
  ⟨argument.name, f argument.value⟩

theorem lastNamed_mapValue (name : String) (f : Value π → Value ρ)
    (arguments : List (Argument π)) :
    lastNamed name (arguments.map (Argument.mapValue f)) = (lastNamed name arguments).map f := by
  rw [lastNamed, lastNamed, lastOf_map, lastOf, lastOf, Option.map_map]
  rfl

theorem lastArguments_mapValue (names : List String) (f : Value π → Value ρ)
    (arguments : List (Argument π)) :
    lastArguments names (arguments.map (Argument.mapValue f)) =
      (lastArguments names arguments).map (Argument.mapValue f) := by
  rw [lastArguments, lastArguments, List.map_filterMap]
  refine congrArg (List.filterMap · names) (funext ?_)
  intro name
  rw [lastNamed_mapValue, Option.map_map, Option.map_map]
  rfl

/-! ## Nodes with slots -/

/-- The slots of a kind of node.  Each has a name of its own, storing a value in one leaves
the others and the place alone, and a node is nothing but its slots and its place. -/
structure Slots (κ : Type) [DecidableEq κ] (ν : Type → Type) where
  all : List κ
  key : κ → String
  empty {π : Type} (position : Option π) : ν π
  get {π : Type} (node : ν π) (slot : κ) : Option (Value π)
  set {π : Type} (node : ν π) (slot : κ) (value : Value π) : ν π
  position {π : Type} (node : ν π) : Option π
  listed (slot : κ) : slot ∈ all
  distinct (slot other : κ) (same : key slot = key other) : slot = other
  get_empty {π : Type} (place : Option π) (slot : κ) : get (empty place) slot = none
  position_empty {π : Type} (place : Option π) : position (empty place) = place
  get_set {π : Type} (node : ν π) (slot other : κ) (value : Value π) :
    get (set node slot value) other = if other = slot then some value else get node other
  position_set {π : Type} (node : ν π) (slot : κ) (value : Value π) :
    position (set node slot value) = position node
  ext {π : Type} (node other : ν π) (slots : ∀ slot, get node slot = get other slot)
    (places : position node = position other) : node = other

namespace Slots

variable {κ : Type} [DecidableEq κ] {ν : Type → Type} (slots : Slots κ ν)

def ofKey? (name : String) : Option κ :=
  slots.all.find? (fun slot => slots.key slot = name)

/-- The node with an argument stored; a name without a slot changes nothing. -/
def store (node : ν π) (argument : Argument π) : ν π :=
  ((slots.ofKey? argument.name).map (fun slot => slots.set node slot argument.value)).getD node

def ofArguments (position : Option π) (arguments : List (Argument π)) : ν π :=
  arguments.foldl slots.store (slots.empty position)

def get? (node : ν π) (name : String) : Option (Value π) :=
  (slots.ofKey? name).bind (slots.get node)

def entries (node : ν π) : List (Argument π) :=
  slots.all.filterMap (fun slot => (slots.get node slot).map (Argument.mk (slots.key slot)))

theorem ofKey?_eq_some (name : String) (slot : κ) :
    slots.ofKey? name = some slot ↔ slots.key slot = name := by
  constructor
  · intro found
    simpa using List.find?_some found
  · rintro rfl
    cases found : slots.ofKey? (slots.key slot) with
    | none => simpa using List.find?_eq_none.mp found slot (slots.listed slot)
    | some other =>
      have same : slots.key other = slots.key slot := by simpa using List.find?_some found
      rw [slots.distinct other slot same]

theorem get_store (node : ν π) (argument : Argument π) (slot : κ) :
    slots.get (slots.store node argument) slot =
      if decide (argument.name = slots.key slot) = true then some argument.value
      else slots.get node slot := by
  unfold store
  cases known : slots.ofKey? argument.name with
  | none =>
    have stranger : argument.name ≠ slots.key slot := by
      intro same
      rw [(slots.ofKey?_eq_some _ slot).mpr same.symm] at known
      cases known
    simp [stranger]
  | some other =>
    have named := (slots.ofKey?_eq_some _ other).mp known
    rw [Option.map_some, Option.getD_some, slots.get_set, ← named]
    by_cases same : slot = other
    · simp [same]
    · have apart : slots.key other ≠ slots.key slot :=
        fun alike => same (slots.distinct other slot alike).symm
      simp [same, apart]

theorem position_store (node : ν π) (argument : Argument π) :
    slots.position (slots.store node argument) = slots.position node := by
  unfold store
  cases slots.ofKey? argument.name with
  | none => rfl
  | some slot => exact slots.position_set node slot argument.value

section

variable (position : Option π) (arguments : List (Argument π))

theorem get_ofArguments (slot : κ) :
    slots.get (slots.ofArguments position arguments) slot =
      lastNamed (slots.key slot) arguments :=
  foldl_lastOf slots.store (slots.get · slot) _ _
    (fun state argument => slots.get_store state argument slot) _ (slots.get_empty position slot)
    arguments

theorem position_ofArguments :
    slots.position (slots.ofArguments position arguments) = position := by
  refine List.foldlRecOn (motive := fun node => slots.position node = position) arguments
    slots.store (slots.position_empty position) ?_
  intro node before argument _
  rw [slots.position_store, before]

theorem get?_ofArguments (name : String) (known : name ∈ slots.all.map slots.key) :
    slots.get? (slots.ofArguments position arguments) name = lastNamed name arguments := by
  obtain ⟨slot, _, rfl⟩ := List.mem_map.mp known
  rw [get?, (slots.ofKey?_eq_some _ slot).mpr rfl]
  exact slots.get_ofArguments position arguments slot

theorem entries_ofArguments :
    slots.entries (slots.ofArguments position arguments) =
      lastArguments (slots.all.map slots.key) arguments := by
  rw [entries, lastArguments, List.filterMap_map]
  refine congrArg (List.filterMap · slots.all) (funext ?_)
  intro slot
  rw [slots.get_ofArguments position arguments slot]
  rfl

end

/-! ## What a node holds -/

theorem mem_entries (node : ν π) (argument : Argument π) :
    argument ∈ slots.entries node ↔
      ∃ slot, slots.key slot = argument.name ∧ slots.get node slot = some argument.value := by
  rw [entries, List.mem_filterMap]
  constructor
  · rintro ⟨slot, _, found⟩
    obtain ⟨value, held, rfl⟩ := Option.map_eq_some_iff.mp found
    exact ⟨slot, rfl, held⟩
  · rintro ⟨slot, named, held⟩
    refine ⟨slot, slots.listed slot, ?_⟩
    rw [held, Option.map_some, named]

/-- A node keeps nothing but arguments of its call. -/
theorem get_ofArguments_mem {position : Option π} {arguments : List (Argument π)} {slot : κ}
    {value : Value π} (held : slots.get (slots.ofArguments position arguments) slot = some value) :
    ⟨slots.key slot, value⟩ ∈ arguments :=
  lastNamed_mem (slots.get_ofArguments position arguments slot ▸ held)

theorem entries_ofArguments_subset (position : Option π) (arguments : List (Argument π)) :
    slots.entries (slots.ofArguments position arguments) ⊆ arguments := by
  rintro ⟨name, value⟩ member
  obtain ⟨slot, rfl, held⟩ := (slots.mem_entries _ _).mp member
  exact slots.get_ofArguments_mem held

/-- The entries of a node fill its slots. -/
theorem ofArguments_entries (node : ν π) :
    slots.ofArguments (slots.position node) (slots.entries node) = node := by
  refine slots.ext _ _ ?_ (slots.position_ofArguments _ _)
  intro slot
  rw [slots.get_ofArguments]
  have holds (value : Value π) (member : ⟨slots.key slot, value⟩ ∈ slots.entries node) :
      slots.get node slot = some value := by
    obtain ⟨other, named, held⟩ := (slots.mem_entries node _).mp member
    rwa [slots.distinct other slot named] at held
  cases held : slots.get node slot with
  | none =>
    refine lastNamed_eq_none ?_
    intro value member
    cases held.symm.trans (holds value member)
  | some value =>
    refine lastNamed_eq_some ((slots.mem_entries node _).mpr ⟨slot, rfl, held⟩) ?_
    intro other member
    exact Option.some.inj ((holds other member).symm.trans held)

/-! ## Changing the values -/

/-- What is done to a node is done to each value in it and to its place. -/
structure Carries (change : ν π → ν ρ) (value : Value π → Value ρ)
    (place : Option π → Option ρ) : Prop where
  get : ∀ node slot, slots.get (change node) slot = (slots.get node slot).map value
  position : ∀ node, slots.position (change node) = place (slots.position node)

namespace Carries

variable {slots} {change : ν π → ν ρ} {value : Value π → Value ρ} {place : Option π → Option ρ}

theorem entries (carries : slots.Carries change value place) (node : ν π) :
    slots.entries (change node) = (slots.entries node).map (Argument.mapValue value) := by
  rw [Slots.entries, Slots.entries, List.map_filterMap]
  refine congrArg (List.filterMap · slots.all) (funext ?_)
  intro slot
  rw [carries.get, Option.map_map, Option.map_map]
  rfl

/-- Values may be changed before the arguments are gathered or after. -/
theorem ofArguments (carries : slots.Carries change value place) (position : Option π)
    (arguments : List (Argument π)) :
    change (slots.ofArguments position arguments) =
      slots.ofArguments (place position) (arguments.map (Argument.mapValue value)) := by
  refine slots.ext _ _ ?_ ?_
  · intro slot
    rw [carries.get, slots.get_ofArguments, slots.get_ofArguments, lastNamed_mapValue]
  · rw [carries.position, slots.position_ofArguments, slots.position_ofArguments]

/-- Calls with the same arguments stand for the same node, as far as the changes tell. -/
theorem ofArguments_congr {σ : Type} {other : ν σ → ν ρ} {otherValue : Value σ → Value ρ}
    {otherPlace : Option σ → Option ρ} (carries : slots.Carries change value place)
    (carriesOther : slots.Carries other otherValue otherPlace) {start : Option π}
    {stop : Option σ} (places : place start = otherPlace stop) {arguments : List (Argument π)}
    {others : List (Argument σ)} (same : arguments.map (Argument.mapValue value) =
      others.map (Argument.mapValue otherValue)) :
    change (slots.ofArguments start arguments) = other (slots.ofArguments stop others) := by
  rw [carries.ofArguments, carriesOther.ofArguments, places, same]

end Carries

end Slots

/-! ## Package calls -/

def Package.slots : Slots PackageSlot Package where
  all := PackageSlot.all
  key := PackageSlot.key
  empty position := { position }
  get := get
  set := set
  position := position
  listed slot := by cases slot <;> decide
  distinct slot other same := by cases slot <;> cases other <;> simp_all [PackageSlot.key]
  get_empty _ slot := by cases slot <;> rfl
  position_empty _ := rfl
  get_set _ slot other _ := by cases slot <;> cases other <;> rfl
  position_set _ slot _ := by cases slot <;> rfl
  ext node other slots places := by
    have visibility := slots .defaultVisibility
    have deprecation := slots .defaultDeprecation
    have testonly := slots .defaultTestonly
    have features := slots .features
    cases node
    cases other
    simp_all [get]

def PackageGroup.slots : Slots PackageGroupSlot PackageGroup where
  all := PackageGroupSlot.all
  key := PackageGroupSlot.key
  empty position := { position }
  get := get
  set := set
  position := position
  listed slot := by cases slot <;> decide
  distinct slot other same := by cases slot <;> cases other <;> simp_all [PackageGroupSlot.key]
  get_empty _ slot := by cases slot <;> rfl
  position_empty _ := rfl
  get_set _ slot other _ := by cases slot <;> cases other <;> rfl
  position_set _ slot _ := by cases slot <;> rfl
  ext node other slots places := by
    have name := slots .name
    have packages := slots .packages
    have includes := slots .includes
    cases node
    cases other
    simp_all [get]

/-! ## Places -/

theorem Package.bare_carries :
    Package.slots.Carries (@Package.bare π) Value.bare fun _ => none where
  get _ slot := by cases slot <;> rfl
  position _ := rfl

theorem PackageGroup.bare_carries :
    PackageGroup.slots.Carries (@PackageGroup.bare π) Value.bare fun _ => none where
  get _ slot := by cases slot <;> rfl
  position _ := rfl

theorem Package.mapPosition_carries (f : π → ρ) :
    Package.slots.Carries (Package.mapPosition f) (Value.mapPosition f) (Option.map f) where
  get _ slot := by cases slot <;> rfl
  position _ := rfl

theorem PackageGroup.mapPosition_carries (f : π → ρ) :
    PackageGroup.slots.Carries (PackageGroup.mapPosition f) (Value.mapPosition f)
      (Option.map f) where
  get _ slot := by cases slot <;> rfl
  position _ := rfl

end BuildLang
