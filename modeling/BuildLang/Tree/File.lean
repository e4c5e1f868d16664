import BuildLang.Tree.Load
import BuildLang.Tree.Package

/-!
# BUILD files

The statements of a file and the tree they are gathered in.  The tree keeps the
loads, rules and declarations in order, and of each other statement the last.
-/

set_option autoImplicit false

namespace BuildLang

structure Attribute (π : Type) where
  name : String
  value : Value π
  position : Option π := none

/-- A call that declares a target.  Attributes may repeat. -/
structure Rule (π : Type) where
  kind : String
  attributes : List (Attribute π)
  position : Option π := none

structure Declaration (π : Type) where
  name : String
  value : Value π
  position : Option π := none

/-- The files a package opens to others. -/
structure ExportsFiles (π : Type) where
  files : ArrayOrName π
  visibility : Option (ArrayOrName π) := none
  position : Option π := none
  deriving DecidableEq, Repr

structure BuildFile (π : Type) where
  loads : List (Load π) := []
  rules : List (Rule π) := []
  declarations : List (Declaration π) := []
  package : Option (Package π) := none
  packageGroup : Option (PackageGroup π) := none
  exportsFiles : Option (ExportsFiles π) := none

/-- A statement of a file, or input that was skipped because it is none. -/
inductive Statement (π : Type) where
  | load (node : Load π)
  | rule (node : Rule π)
  | declaration (node : Declaration π)
  | package (node : Package π)
  | packageGroup (node : PackageGroup π)
  | exportsFiles (node : ExportsFiles π)
  | skipped

def Attribute.mapPosition {π ρ : Type} (f : π → ρ) (argument : Attribute π) : Attribute ρ :=
  ⟨argument.name, argument.value.mapPosition f, argument.position.map f⟩

namespace Rule

variable {π ρ : Type}

/-- The attributes with the given name, in order. -/
def attributesNamed (rule : Rule π) (name : String) : List (Attribute π) :=
  rule.attributes.filter (fun argument => argument.name = name)

/-- The text of the first `name` attribute, if that is a string. -/
def name? (rule : Rule π) : Option String :=
  match rule.attributesNamed "name" with
  | [] => none
  | argument :: _ => argument.value.string?.map StringLiteral.value

def mapPosition (f : π → ρ) (rule : Rule π) : Rule ρ :=
  ⟨rule.kind, rule.attributes.map (Attribute.mapPosition f), rule.position.map f⟩

end Rule

def Declaration.mapPosition {π ρ : Type} (f : π → ρ) (declaration : Declaration π) :
    Declaration ρ :=
  ⟨declaration.name, declaration.value.mapPosition f, declaration.position.map f⟩

namespace ExportsFiles

variable {π ρ : Type}

/-- The strings of the array, or the name that stands for one. -/
def fileNames (exports : ExportsFiles π) : List String :=
  match exports.files with
  | .array node => node.stringValues
  | .identifier node => [node.name]

def mapPosition (f : π → ρ) (exports : ExportsFiles π) : ExportsFiles ρ :=
  ⟨exports.files.mapPosition f, exports.visibility.map (ArrayOrName.mapPosition f),
    exports.position.map f⟩

end ExportsFiles

namespace BuildFile

variable {π ρ : Type}

/-- The first rule with the given name. -/
def findRule? (file : BuildFile π) (name : String) : Option (Rule π) :=
  file.rules.find? (fun rule => rule.name? = some name)

/-- The last declaration of the given name. -/
def findDeclaration? (file : BuildFile π) (name : String) : Option (Declaration π) :=
  file.declarations.reverse.find? (fun declaration => declaration.name = name)

/-- The names that the loads bind, in order. -/
def loadedNames (file : BuildFile π) : List String :=
  file.loads.flatMap (fun load => load.symbols.map LoadedSymbol.localName)

def isEmpty (file : BuildFile π) : Bool :=
  file.loads.isEmpty && file.rules.isEmpty && file.declarations.isEmpty &&
    file.package.isNone && file.packageGroup.isNone && file.exportsFiles.isNone

def mapPosition (f : π → ρ) (file : BuildFile π) : BuildFile ρ :=
  ⟨file.loads.map (Load.mapPosition f), file.rules.map (Rule.mapPosition f),
    file.declarations.map (Declaration.mapPosition f),
    file.package.map (Package.mapPosition f),
    file.packageGroup.map (PackageGroup.mapPosition f),
    file.exportsFiles.map (ExportsFiles.mapPosition f)⟩

def add (file : BuildFile π) : Statement π → BuildFile π
  | .load node => { file with loads := file.loads ++ [node] }
  | .rule node => { file with rules := file.rules ++ [node] }
  | .declaration node => { file with declarations := file.declarations ++ [node] }
  | .package node => { file with package := some node }
  | .packageGroup node => { file with packageGroup := some node }
  | .exportsFiles node => { file with exportsFiles := some node }
  | .skipped => file

end BuildFile

end BuildLang
