import BuildLang.Command.Directory
import BuildLang.Format
import BuildLang.Json.Token
import BuildLang.Json.Tree
import BuildLang.Sample
import BuildLang.Settings

/-!
# Processing

A source is taken to a stage, tokens or tree, and written in one of the formats of
that stage.  A stage and a format together have a name, such as `ast-json`.
-/

set_option autoImplicit false

namespace BuildLang

inductive Stage where
  | token
  | tree
  deriving DecidableEq, Repr

inductive OutputFormat where
  | simple
  | json
  | canonical
  | loads
  deriving DecidableEq, Repr

/-- What is made of a source. -/
structure Processing where
  stage : Stage
  format : OutputFormat
  deriving DecidableEq, Repr

inductive ProcessError where
  | rejected (diagnostics : List Diagnostic)
  | unreadable (error : FileError)
  | invalidFormat (name : String)
  | invalidStage (name : String)
  | unsupported (processing : Processing)
  | unknownSample (name : String)
  deriving DecidableEq, Repr

def Stage.name : Stage → String
  | .token => "token"
  | .tree => "ast"

def OutputFormat.name : OutputFormat → String
  | .simple => "simple"
  | .json => "json"
  | .canonical => "canonical"
  | .loads => "loads"

def ProcessError.message : ProcessError → String
  | .rejected diagnostics => Diagnostic.report diagnostics
  | .unreadable error => s!"I/O error: {error.message}"
  | .invalidFormat name => s!"invalid format '{name}'"
  | .invalidStage name => s!"invalid stage '{name}'"
  | .unsupported processing =>
      s!"format '{processing.format.name}' is not available for the {processing.stage.name} stage"
  | .unknownSample name => s!"unknown sample '{name}'"

namespace Processing

def name (processing : Processing) : String :=
  processing.stage.name ++ "-" ++ processing.format.name

def available : List Processing :=
  [⟨.token, .simple⟩, ⟨.token, .json⟩, ⟨.tree, .json⟩, ⟨.tree, .canonical⟩, ⟨.tree, .loads⟩]

def availableNames : List String :=
  available.map name

def stageOfName? (name : String) : Option Stage :=
  [Stage.token, .tree].find? (fun stage => stage.name = name)

def formatOfName? (name : String) : Option OutputFormat :=
  [OutputFormat.simple, .json, .canonical, .loads].find? (fun format => format.name = name)

/-- Splits a text at its first hyphen. -/
def splitName? (text : String) : Option (String × String) :=
  match text.toList.span (· ≠ '-') with
  | (_, []) => none
  | (stage, _ :: format) => some (String.ofList stage, String.ofList format)

/-- The processing with the given name.  Of two faults the one further left counts. -/
def ofName (text : String) : Except ProcessError Processing :=
  match splitName? text with
  | none => .error (.invalidFormat text)
  | some (stageName, formatName) =>
      match stageOfName? stageName, formatOfName? formatName with
      | none, _ => .error (.invalidStage stageName)
      | some _, none => .error (.invalidFormat text)
      | some stage, some format =>
          let processing := ⟨stage, format⟩
          if available.contains processing then .ok processing
          else .error (.unsupported processing)

end Processing

/-- The line of a token: its category, and its text if the category leaves that
open. -/
def Token.simpleText (lexeme : Token) : String :=
  match lexeme with
  | .string _ | .number _ | .identifier _ | .boolean _ =>
      "<" ++ lexeme.category ++ ":" ++ lexeme.text ++ ">"
  | _ => "<" ++ lexeme.category ++ ">"

def simpleText (tokens : List Token) : String :=
  String.join (tokens.map (fun lexeme => lexeme.simpleText ++ "\n"))

namespace Processing

def writeTokens (tokens : List Token) : OutputFormat → Except ProcessError String
  | .simple => .ok (simpleText tokens)
  | .json => .ok (Json.array (tokens.map Token.toJson)).print
  | format => .error (.unsupported ⟨.token, format⟩)

/-- Writes a tree in a format of its stage; the canonical form is always of the whole
file. -/
def writeFile (settings : Settings) (file : BuildFile Position) :
    OutputFormat → Except ProcessError String
  | .json => .ok file.toJson.print
  | .canonical => .ok (file.print ⟨.all, settings.indent⟩)
  | .loads => .ok file.printLoads
  | .simple => .error (.unsupported ⟨.tree, .simple⟩)

/-- Processes a source.  What is wrong with the source is told before what is wrong
with the format. -/
def run (processing : Processing) (settings : Settings) (source : String) :
    Except ProcessError String := do
  match processing.stage with
  | .token =>
      let lexemes ← (lex source).mapError .rejected
      writeTokens (lexemes.map Lexeme.token) processing.format
  | .tree =>
      let file ← (parseWith settings.recovery source).mapError .rejected
      writeFile settings file processing.format

end Processing

namespace Sample

def read (name : String) : Except ProcessError String :=
  match find? name with
  | none => .error (.unknownSample name)
  | some sample => .ok sample.text

/-- A sample, processed with default settings. -/
def process (name format : String) : Except ProcessError String := do
  let source ← read name
  let processing ← Processing.ofName format
  processing.run {} source

end Sample

end BuildLang
