/-!
# Command-line arguments

The first word may name a command.  Options may stand anywhere, and behind two
hyphens everything is a word.
-/

set_option autoImplicit false

namespace BuildLang

/-- The commands; without a name the file is processed. -/
inductive CommandName where
  | unnamed
  | process
  | format
  | formats
  deriving DecidableEq, Repr

structure Arguments where
  command : CommandName := .unnamed
  words : List String := []
  config : Option String := none
  check : Bool := false
  deriving DecidableEq, Repr

/-- What arguments ask for, if not for a command: they make no sense, or the help
or the version is to be shown. -/
inductive ArgumentStop where
  | misuse
  | help
  | version
  deriving DecidableEq, Repr

namespace Arguments

def wordLimit : CommandName → Nat
  | .unnamed => 2
  | .process => 2
  | .format => 1
  | .formats => 0

/-- Whether nothing but the name of a command was read. -/
def isFresh (arguments : Arguments) : Bool :=
  arguments.words.isEmpty && arguments.config.isNone && !arguments.check

def addWord (arguments : Arguments) (word : String) : Except ArgumentStop Arguments :=
  if arguments.words.length < wordLimit arguments.command then
    .ok { arguments with words := arguments.words ++ [word] }
  else .error .misuse

/-- A settings file may be named once. -/
def setConfig (arguments : Arguments) (name : String) : Except ArgumentStop Arguments :=
  if arguments.config.isNone then .ok { arguments with config := some name }
  else .error .misuse

def setCheck (arguments : Arguments) : Except ArgumentStop Arguments :=
  if arguments.command = .format && !arguments.check then .ok { arguments with check := true }
  else .error .misuse

/-- Only the program has a version, its commands have none. -/
def showVersion (arguments : Arguments) : ArgumentStop :=
  if arguments.command = .unnamed then .version else .misuse

def showHelp (name : String) (rest : List String) : ArgumentStop :=
  if ["process", "format", "formats", "help"].contains name && rest.isEmpty then .help
  else .misuse

inductive Shape where
  | word
  | config
  | configIs (name : String)
  | check
  | help
  | version
  | wordsOnly
  | unknown
  deriving DecidableEq, Repr

def shortShape : List Char → Shape
  | [] => .word
  | [c] =>
      if c = 'c' then .config
      else if c = 'h' then .help
      else if c = 'V' then .version
      else .unknown
  | c :: d :: rest =>
      if c = 'c' then .configIs (String.ofList (if d = '=' then rest else d :: rest))
      else if c = 'h' then .help
      else if c = 'V' then .version
      else .unknown

def shapeOf (argument : String) : Shape :=
  match argument.toList with
  | '-' :: '-' :: rest =>
      let option := String.ofList rest
      if option = "" then .wordsOnly
      else if option = "config" then .config
      else if option = "check" then .check
      else if option = "help" then .help
      else if option = "version" then .version
      else if "config=".toList.isPrefixOf rest then .configIs (String.ofList (rest.drop 7))
      else .unknown
  | '-' :: rest => shortShape rest
  | _ => .word

/-- What the next argument may be: anything, the name of a settings file, or a word
whatever it looks like. -/
inductive Mode where
  | anything
  | configName
  | wordsOnly
  deriving DecidableEq, Repr

def step (state : Arguments × Mode) (argument : String) :
    Except ArgumentStop (Arguments × Mode) :=
  let (arguments, mode) := state
  match mode, shapeOf argument with
  | .wordsOnly, _ => (arguments.addWord argument).map (·, .wordsOnly)
  | .configName, .word => (arguments.setConfig argument).map (·, .anything)
  | .configName, _ => .error .misuse
  | .anything, .word => (arguments.addWord argument).map (·, .anything)
  | .anything, .config => .ok (arguments, .configName)
  | .anything, .configIs name => (arguments.setConfig name).map (·, .anything)
  | .anything, .check => arguments.setCheck.map (·, .anything)
  | .anything, .wordsOnly => .ok (arguments, .wordsOnly)
  | .anything, .help => .error .help
  | .anything, .version => .error arguments.showVersion
  | .anything, .unknown => .error .misuse

def readFrom (command : CommandName) (rest : List String) : Except ArgumentStop Arguments := do
  match ← rest.foldlM step ({ command }, .anything) with
  | (_, .configName) => .error .misuse
  | (arguments, _) => .ok arguments

/-- Whether a command has the words it cannot do without.  The unnamed one needs
some argument at least. -/
def isComplete (arguments : Arguments) : Bool :=
  match arguments.command with
  | .unnamed => !arguments.isFresh
  | .formats => true
  | .process | .format => !arguments.words.isEmpty

def read (arguments : List String) : Except ArgumentStop Arguments := do
  let read ← match arguments with
    | "process" :: rest => readFrom .process rest
    | "format" :: rest => readFrom .format rest
    | "formats" :: rest => readFrom .formats rest
    | ["help"] => .error .help
    | "help" :: name :: rest => .error (showHelp name rest)
    | all => readFrom .unnamed all
  if read.isComplete then .ok read else .error .misuse

end Arguments

end BuildLang
