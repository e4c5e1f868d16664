import BuildLang.Layout.File
import BuildLang.Layout.Line

/-!
# Layout

What a tree is written as, line by line, with no state to thread: each part of a tree is a
list of lines that know how deep they stand in it.
-/

set_option autoImplicit false

namespace BuildLang

variable {π : Type}

namespace Line

/-- Sections with an empty line between neighbours; those without lines vanish. -/
def sections (parts : List (List Line)) : List Line :=
  [⟨0, ""⟩].intercalate (parts.filter (fun part => !part.isEmpty))

/-- Writes the lines, with `indent` for each level of depth and a newline behind
every one. -/
def renderAll (indent : String) (lines : List Line) : String :=
  String.join (lines.map (fun line => line.render indent ++ "\n"))

end Line

/-! ## Values -/

def ArrayOrName.text : ArrayOrName π → String
  | .array node => node.text
  | .identifier node => node.name

namespace Select

def messageText (message : Option (Phrase π)) : String :=
  match message with
  | none => ""
  | some message => ", no_match_error = " ++ message.raw

def enclose (constraint : List Line) (message : Option (Phrase π)) : List Line :=
  Line.besideAll [Line.single "select(", constraint, Line.single (messageText message ++ ")")]

end Select

namespace Value

mutual

def layout : Value π → List Line
  | .string literal => Line.single literal.raw
  | .number literal => Line.single literal.raw
  | .boolean literal => Line.single literal.raw
  | .identifier node => Line.single node.name
  | .array node => Line.single node.text
  | .glob node => Line.single node.text
  | .dict ⟨entries, _⟩ => Line.block "\x7b" (layoutEntries entries) "\x7d"
  | .select ⟨.dict ⟨entries, _⟩, message, _⟩ =>
      Select.enclose (Line.block "\x7b" (layoutEntries entries) "\x7d") message
  | .select ⟨.identifier node, message, _⟩ => Select.enclose (Line.single node.name) message

/-- The lines of the entries of a dict. -/
def layoutEntries : List (Entry π (Value π)) → List Line
  | [] => []
  | ⟨key, value⟩ :: rest =>
      Line.besideAll [Line.single (key.raw ++ ": "), layout value, Line.single ","] ++
        layoutEntries rest

end

end Value

/-! ## Statements -/

/-- A name set to a value, with `ending` behind it. -/
def layoutBinding (name : String) (value : Value π) (ending : String) : List Line :=
  Line.besideAll [Line.single (name ++ " = "), value.layout, Line.single ending]

namespace Rule

/-- Attributes are parted by commas, with none behind the last one. -/
def layoutAttributes : List (Attribute π) → List Line
  | [] => []
  | [last] => layoutBinding last.name last.value ""
  | argument :: rest => layoutBinding argument.name argument.value "," ++ layoutAttributes rest

def layout (rule : Rule π) : List Line :=
  Line.block (rule.kind ++ "(") (layoutAttributes rule.attributes) ")"

end Rule

def layoutCall (name : String) (arguments : List (Argument π)) : List Line :=
  Line.block (name ++ "(")
    (arguments.flatMap (fun argument => layoutBinding argument.name argument.value ",")) ")"

def ExportsFiles.layout (exports : ExportsFiles π) : List Line :=
  let visibility := match exports.visibility with
    | none => ""
    | some value => ", visibility = " ++ value.text
  Line.single ("exports_files(" ++ exports.files.text ++ visibility ++ ")")

def Declaration.layout (declaration : Declaration π) : List Line :=
  layoutBinding declaration.name declaration.value ""

/-! ## Files -/

namespace BuildFile

def layoutLoads (file : BuildFile π) : List Line :=
  file.sortedLoads.flatMap (fun load => Line.single load.text)

/-- The sections of a file, empty ones included. -/
def layoutSections (file : BuildFile π) : List (List Line) :=
  [file.layoutLoads, file.declarations.flatMap Declaration.layout] ++
    (file.exportsFiles.map ExportsFiles.layout).toList ++
    file.rules.map Rule.layout ++
    (file.package.map (fun package => layoutCall "package" package.entries)).toList ++
    (file.packageGroup.map (fun group => layoutCall "package_group" group.entries)).toList

def layout (file : BuildFile π) : List Line :=
  Line.sections file.layoutSections

end BuildFile

end BuildLang
