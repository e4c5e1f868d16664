/-!
# Emitter

Text is written piece by piece into a buffer.  The first piece of a line brings its
indentation with it, so that an empty line has none, and how deep it is was settled before.
-/

set_option autoImplicit false

namespace BuildLang

structure Emitter where
  buffer : String := ""
  /-- One level of indentation. -/
  unit : String
  depth : Nat := 0
  atLineStart : Bool := true
  deriving DecidableEq, Repr

namespace Emitter

def new (unit : String) : Emitter :=
  { unit }

/-- The buffer with one unit for each level behind it. -/
def pushUnits (unit : String) : Nat → String → String
  | 0, buffer => buffer
  | depth + 1, buffer => pushUnits unit depth (buffer ++ unit)

/-- Goes on with the current line. -/
def print (out : Emitter) (text : String) : Emitter :=
  if text.isEmpty then out
  else if out.atLineStart then
    { out with
      buffer := pushUnits out.unit out.depth out.buffer ++ text
      atLineStart := false }
  else { out with buffer := out.buffer ++ text }

def newline (out : Emitter) : Emitter :=
  { out with buffer := out.buffer ++ "\n", atLineStart := true }

def println (out : Emitter) (text : String) : Emitter :=
  (out.print text).newline

def indent (out : Emitter) : Emitter :=
  { out with depth := out.depth + 1 }

/-- One level less, if there is one. -/
def dedent (out : Emitter) : Emitter :=
  { out with depth := out.depth - 1 }

def finish (out : Emitter) : String :=
  out.buffer

end Emitter

end BuildLang
