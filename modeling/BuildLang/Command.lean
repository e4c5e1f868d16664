import BuildLang.Command.Arguments
import BuildLang.Command.LogFilter
import BuildLang.Process

/-!
# The command line

What the program prints for its arguments, given how files are read.  Settings are
gathered before anything else is looked at.
-/

set_option autoImplicit false

namespace BuildLang

/-- What a run leaves behind. -/
structure CommandResult where
  code : Nat
  output : String
  errors : String
  deriving DecidableEq, Repr

namespace CommandResult

def success (output : String) : CommandResult :=
  ⟨0, output, ""⟩

def complaint (line : String) : CommandResult :=
  ⟨1, "", line ++ "\n"⟩

def failure (message : String) : CommandResult :=
  complaint ("Error: " ++ message)

/-- The result with something printed ahead of its errors. -/
def warnFirst (warnings : String) (result : CommandResult) : CommandResult :=
  { result with errors := warnings ++ result.errors }

end CommandResult

namespace Command

def versionText : String :=
  "buildfile 0.1.0\n"

def defaultFormat : String :=
  "ast-canonical"

/-- The paths of a settings file with a name; the ending `.toml` may be left out. -/
def settingsPaths (name : String) : List String :=
  name :: (FilePath.addEnding? name ".toml").toList

/-- The settings file with a name: the first of its paths that leads to a text. -/
def findSettings (read : FileReader) (name : String) : SettingsFile :=
  let found := (settingsPaths name).findSome? fun path =>
    (read path).toOption.map fun text => SettingsFile.found (FilePath.clean path) text
  found.getD (.missing name)

def loadSettings (read : FileReader) (config : Option String) : Except SettingsError Settings :=
  Settings.load (config.map (findSettings read)).toList []

/-- Processes a file; the format is looked at first. -/
def processFile (read : FileReader) (settings : Settings) (path format : String) :
    Except ProcessError String := do
  let processing ← Processing.ofName format
  let source ← (read path).mapError .unreadable
  processing.run settings source

def process (read : FileReader) (settings : Settings) (path format : String) : CommandResult :=
  match processFile read settings path format with
  | .ok output => .success output
  | .error error => .failure error.message

/-- Formats a file, or checks that it is formatted already; a check is always of the
whole file. -/
def format (read : FileReader) (settings : Settings) (path : String) (check : Bool) :
    CommandResult :=
  match read path with
  | .error error => .failure s!"reading {path}: {error.message}"
  | .ok source =>
      let options : PrintOptions :=
        ⟨if check then .all else settings.scope, settings.indent⟩
      match formatWith settings.recovery options source with
      | .error diagnostics => .failure (Diagnostic.report diagnostics)
      | .ok formatted =>
          if !check then .success formatted
          else if formatted = source then .success ""
          else .complaint s!"{path} is not canonically formatted"

def formatsText : String :=
  "Available formats:\n\n" ++
    String.join (Processing.availableNames.map (fun name => "  " ++ name ++ "\n"))

def perform (read : FileReader) (settings : Settings) (arguments : Arguments) : CommandResult :=
  match arguments.command, arguments.words with
  | .formats, _ => .success formatsText
  | .format, path :: _ => format read settings path arguments.check
  | _, [path] => process read settings path defaultFormat
  | _, path :: format :: _ => process read settings path format
  | _, [] => .failure "a path or a subcommand is required"

def run (read : FileReader) (arguments : List String) : CommandResult :=
  match Arguments.read arguments with
  | .error .misuse => ⟨2, "", ""⟩
  | .error .help => .success ""
  | .error .version => .success versionText
  | .ok arguments =>
      match loadSettings read arguments.config with
      | .error error => .failure error.message
      | .ok settings =>
          let warnings := (LogFilter.faults settings.level).map LogFilterFault.warning
          (perform read settings arguments).warnFirst (String.join warnings)

def paths (arguments : List String) : List String :=
  match Arguments.read arguments with
  | .error _ => []
  | .ok arguments =>
      arguments.config.toList.flatMap settingsPaths ++ arguments.words.take 1

end Command

end BuildLang
