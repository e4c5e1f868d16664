/-!
# Directories in memory

A directory is a list of files with their paths in it.  Reading one fails for the
reasons that reading a file can fail for.
-/

set_option autoImplicit false

namespace BuildLang

inductive FileError where
  | missing
  | isDirectory
  | notDirectory
  | nameTooLong
  deriving DecidableEq, Repr

def FileError.message : FileError → String
  | .missing => "No such file or directory (os error 2)"
  | .isDirectory => "Is a directory (os error 21)"
  | .notDirectory => "Not a directory (os error 20)"
  | .nameTooLong => "File name too long (os error 36)"

abbrev FileReader := String → Except FileError String

namespace FilePath

/-- The names a path leads through; a lone point stays where it is. -/
def steps (path : String) : List String :=
  (path.splitOn "/").filter (fun name => name ≠ "" && name ≠ ".")

/-- Whether a path begins at the root and not in the directory at hand. -/
def isAbsolute (path : String) : Bool :=
  path.toList.head? = some '/'

/-- A path without empty names and lone points. -/
def clean (path : String) : String :=
  (if isAbsolute path then "/" else "") ++ "/".intercalate (steps path)

/-- The path with an ending added to its last name, if it ends in a name. -/
def addEnding? (path ending : String) : Option String :=
  match (steps path).getLast? with
  | none => none
  | some name => if name = ".." then none else some (clean path ++ ending)

def nameLimit : Nat := 255

def pathLimit : Nat := 4095

/-- Whether a path can only lead to a directory. -/
def asksDirectory (path : String) : Bool :=
  match (path.splitOn "/").getLast? with
  | some name => name = "" || name = "."
  | none => true

end FilePath

structure DirectoryFile where
  path : String
  text : String
  deriving Repr

inductive DirectoryEntry where
  | file (text : String)
  | directory
  deriving DecidableEq, Repr

/-- A place seen from a directory: some directories up, then down through names. -/
structure DirectoryPlace where
  above : Nat := 0
  names : List String := []
  deriving DecidableEq, Repr

namespace DirectoryPlace

/-- What stands at a place.  Nothing is known outside the directory but the
directories that it lies in. -/
def entry? (files : List DirectoryFile) (place : DirectoryPlace) : Option DirectoryEntry :=
  if place.names.isEmpty then some .directory
  else if place.above ≠ 0 then none
  else
    match files.find? (fun file => FilePath.steps file.path = place.names) with
    | some file => some (.file file.text)
    | none =>
        if files.any (fun file => place.names.isPrefixOf (FilePath.steps file.path)) then
          some .directory
        else none

def up (place : DirectoryPlace) : DirectoryPlace :=
  if place.names.isEmpty then { place with above := place.above + 1 }
  else { place with names := place.names.dropLast }

def down (place : DirectoryPlace) (name : String) : DirectoryPlace :=
  if name = ".." then place.up else { place with names := place.names ++ [name] }

/-- One step from a place, which has to be a directory. -/
def step (files : List DirectoryFile) (place : DirectoryPlace) (name : String) :
    Except FileError DirectoryPlace :=
  match place.entry? files with
  | some .directory =>
      if FilePath.nameLimit < name.utf8ByteSize then .error .nameTooLong
      else .ok (place.down name)
  | some (.file _) => .error .notDirectory
  | none => .error .missing

end DirectoryPlace

def readDirectory (files : List DirectoryFile) : FileReader := fun path => do
  if path = "" then throw .missing
  if FilePath.pathLimit < path.utf8ByteSize then throw .nameTooLong
  let start : DirectoryPlace := { above := if FilePath.isAbsolute path then 1 else 0 }
  let place ← (FilePath.steps path).foldlM (DirectoryPlace.step files) start
  match place.entry? files with
  | some .directory => throw .isDirectory
  | some (.file text) => if FilePath.asksDirectory path then throw .notDirectory else return text
  | none => throw .missing

end BuildLang
