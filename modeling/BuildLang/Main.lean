import BuildLang.Command

/-!
# The program

Reads the files that a run may look at, runs it, and prints what it leaves behind.
-/

set_option autoImplicit false

namespace BuildLang

def readPath (path : String) : IO (Except FileError String) := do
  try
    return .ok (← IO.FS.readFile path)
  catch
    | .noFileOrDirectory .. => return .error .missing
    | .inappropriateType .. => return .error .isDirectory
    | .invalidArgument .. => return .error .nameTooLong
    | _ => return .error .notDirectory

def lookUp (files : List (String × Except FileError String)) : FileReader := fun path =>
  (files.lookup path).getD (.error .missing)

end BuildLang

def main (arguments : List String) : IO UInt32 := do
  let files ← (BuildLang.Command.paths arguments).mapM fun path => do
    return (path, ← BuildLang.readPath path)
  let result := BuildLang.Command.run (BuildLang.lookUp files) arguments
  (← IO.getStdout).putStr result.output
  (← IO.getStderr).putStr result.errors
  return result.code.toUInt32
