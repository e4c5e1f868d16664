import BuildLang.Tree.Value

/-!
# Package calls

`package` and `package_group` keep the arguments whose names have a slot and
drop all others.  A slot holds the argument that was set last.
-/

set_option autoImplicit false

namespace BuildLang

structure Argument (π : Type) where
  name : String
  value : Value π

inductive PackageSlot where
  | defaultVisibility
  | defaultDeprecation
  | defaultTestonly
  | features
  deriving DecidableEq, Repr

namespace PackageSlot

def all : List PackageSlot :=
  [.defaultVisibility, .defaultDeprecation, .defaultTestonly, .features]

def key : PackageSlot → String
  | .defaultVisibility => "default_visibility"
  | .defaultDeprecation => "default_deprecation"
  | .defaultTestonly => "default_testonly"
  | .features => "features"

def ofKey? (key : String) : Option PackageSlot :=
  all.find? (fun slot => slot.key = key)

end PackageSlot

structure Package (π : Type) where
  defaultVisibility : Option (Value π) := none
  defaultDeprecation : Option (Value π) := none
  defaultTestonly : Option (Value π) := none
  features : Option (Value π) := none
  position : Option π := none

namespace Package

variable {π ρ : Type}

def get (package : Package π) : PackageSlot → Option (Value π)
  | .defaultVisibility => package.defaultVisibility
  | .defaultDeprecation => package.defaultDeprecation
  | .defaultTestonly => package.defaultTestonly
  | .features => package.features

def set (package : Package π) (slot : PackageSlot) (value : Value π) : Package π :=
  match slot with
  | .defaultVisibility => { package with defaultVisibility := some value }
  | .defaultDeprecation => { package with defaultDeprecation := some value }
  | .defaultTestonly => { package with defaultTestonly := some value }
  | .features => { package with features := some value }

def get? (package : Package π) (key : String) : Option (Value π) :=
  (PackageSlot.ofKey? key).bind package.get

/-- The package with an argument stored, or nothing if its name has no slot. -/
def assign? (package : Package π) (argument : Argument π) : Option (Package π) :=
  (PackageSlot.ofKey? argument.name).map (fun slot => package.set slot argument.value)

/-- The package with an argument stored; a name without a slot changes nothing. -/
def assign (package : Package π) (argument : Argument π) : Package π :=
  (package.assign? argument).getD package

def ofArguments (position : Option π) (arguments : List (Argument π)) : Package π :=
  arguments.foldl assign { position }

/-- The filled slots, in the order in which they are written. -/
def entries (package : Package π) : List (Argument π) :=
  PackageSlot.all.filterMap (fun slot => (package.get slot).map (Argument.mk slot.key))

def mapPosition (f : π → ρ) (package : Package π) : Package ρ :=
  ⟨package.defaultVisibility.map (Value.mapPosition f),
    package.defaultDeprecation.map (Value.mapPosition f),
    package.defaultTestonly.map (Value.mapPosition f),
    package.features.map (Value.mapPosition f), package.position.map f⟩

end Package

inductive PackageGroupSlot where
  | name
  | packages
  | includes
  deriving DecidableEq, Repr

namespace PackageGroupSlot

def all : List PackageGroupSlot :=
  [.name, .packages, .includes]

def key : PackageGroupSlot → String
  | .name => "name"
  | .packages => "packages"
  | .includes => "includes"

def ofKey? (key : String) : Option PackageGroupSlot :=
  all.find? (fun slot => slot.key = key)

end PackageGroupSlot

structure PackageGroup (π : Type) where
  name : Option (Value π) := none
  packages : Option (Value π) := none
  includes : Option (Value π) := none
  position : Option π := none

namespace PackageGroup

variable {π ρ : Type}

def get (group : PackageGroup π) : PackageGroupSlot → Option (Value π)
  | .name => group.name
  | .packages => group.packages
  | .includes => group.includes

def set (group : PackageGroup π) (slot : PackageGroupSlot) (value : Value π) :
    PackageGroup π :=
  match slot with
  | .name => { group with name := some value }
  | .packages => { group with packages := some value }
  | .includes => { group with includes := some value }

def get? (group : PackageGroup π) (key : String) : Option (Value π) :=
  (PackageGroupSlot.ofKey? key).bind group.get

/-- The group with an argument stored, or nothing if its name has no slot. -/
def assign? (group : PackageGroup π) (argument : Argument π) : Option (PackageGroup π) :=
  (PackageGroupSlot.ofKey? argument.name).map (fun slot => group.set slot argument.value)

/-- The group with an argument stored; a name without a slot changes nothing. -/
def assign (group : PackageGroup π) (argument : Argument π) : PackageGroup π :=
  (group.assign? argument).getD group

def ofArguments (position : Option π) (arguments : List (Argument π)) : PackageGroup π :=
  arguments.foldl assign { position }

/-- The filled slots, in the order in which they are written. -/
def entries (group : PackageGroup π) : List (Argument π) :=
  PackageGroupSlot.all.filterMap (fun slot => (group.get slot).map (Argument.mk slot.key))

def mapPosition (f : π → ρ) (group : PackageGroup π) : PackageGroup ρ :=
  ⟨group.name.map (Value.mapPosition f), group.packages.map (Value.mapPosition f),
    group.includes.map (Value.mapPosition f), group.position.map f⟩

end PackageGroup

end BuildLang
