import BuildLang.Layout.Value
import BuildLang.Tree.File

/-!
# Canonical text

A file is written in sections, parted by one empty line: loads, declarations,
exported files, each rule, the package and its group.  Loads are sorted by label
and their symbols by imported name; all else keeps its order.
-/

set_option autoImplicit false

namespace BuildLang

variable {π : Type}

/-- What of a file is written. -/
inductive PrintScope where
  | all
  | loads
  deriving DecidableEq, Repr

structure PrintOptions where
  scope : PrintScope := .all
  indent : String := "    "
  deriving DecidableEq, Repr

def LoadedSymbol.text : LoadedSymbol π → String
  | .plain symbol _ => quoted symbol
  | .renamed name symbol _ => name ++ " = " ++ quoted symbol

namespace Load

/-- The symbols by the name they have where they come from. -/
def sortedSymbols (load : Load π) : List (LoadedSymbol π) :=
  load.symbols.mergeSort (fun first second => first.symbol ≤ second.symbol)

def text (load : Load π) : String :=
  "load(" ++ quoted load.source ++ ", " ++
    ", ".intercalate (load.sortedSymbols.map LoadedSymbol.text) ++ ")"

end Load

/-- The loads by the label they load from. -/
def BuildFile.sortedLoads (file : BuildFile π) : List (Load π) :=
  file.loads.mergeSort (fun first second => first.source ≤ second.source)

namespace Emitter

def writeLoads (out : Emitter) (loads : List (Load π)) : Emitter :=
  loads.foldl (fun out load => out.println load.text) out

/-- A name set to a value, in the line that was begun. -/
def writeBinding (out : Emitter) (name : String) (value : Value π) : Emitter :=
  ((out.print name).print " = ").writeValue value

def writeDeclaration (out : Emitter) (declaration : Declaration π) : Emitter :=
  (out.writeBinding declaration.name declaration.value).newline

/-- Attributes are parted by commas, with none behind the last one. -/
def writeAttributes (out : Emitter) : List (Attribute π) → Emitter
  | [] => out
  | [last] => (out.writeBinding last.name last.value).newline
  | argument :: rest =>
      ((out.writeBinding argument.name argument.value).print ",").newline.writeAttributes rest

def writeRule (out : Emitter) (rule : Rule π) : Emitter :=
  if rule.attributes.isEmpty then out.println (rule.kind ++ "()")
  else
    ((out.println (rule.kind ++ "(")).indent.writeAttributes rule.attributes).dedent.println ")"

/-- A call with each argument on lines of its own and a comma behind every one. -/
def writeCall (out : Emitter) (name : String) (arguments : List (Argument π)) : Emitter :=
  if arguments.isEmpty then out.println (name ++ "()")
  else
    (arguments.foldl (fun out argument =>
      (out.writeBinding argument.name argument.value).println ",")
      (out.println (name ++ "(")).indent).dedent.println ")"

def writeExportsFiles (out : Emitter) (exports : ExportsFiles π) : Emitter :=
  let files := (out.print "exports_files(").writeArrayOrName exports.files
  match exports.visibility with
  | none => files.println ")"
  | some visibility =>
      ((files.print ", visibility = ").writeArrayOrName visibility).println ")"

end Emitter

namespace BuildFile

def printLoads (file : BuildFile π) : String :=
  ((Emitter.new "").writeLoads file.sortedLoads).finish

/-- The text of each section of a file, empty ones included. -/
def blocks (indent : String) (file : BuildFile π) : List String :=
  let out := Emitter.new indent
  [file.printLoads, (file.declarations.foldl Emitter.writeDeclaration out).finish] ++
    (file.exportsFiles.map fun exports => (out.writeExportsFiles exports).finish).toList ++
    file.rules.map (fun rule => (out.writeRule rule).finish) ++
    (file.package.map fun package => (out.writeCall "package" package.entries).finish).toList ++
    (file.packageGroup.map fun group =>
      (out.writeCall "package_group" group.entries).finish).toList

/-- The canonical text of a file. -/
def print (options : PrintOptions) (file : BuildFile π) : String :=
  match options.scope with
  | .all => "\n".intercalate ((file.blocks options.indent).filter fun block => !block.isEmpty)
  | .loads => file.printLoads

end BuildFile

end BuildLang
