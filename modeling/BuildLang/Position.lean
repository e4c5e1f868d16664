import BuildLang.Token.Piece

/-!
# Positions

Byte offsets turned into lines and columns.  Lines and columns count from one,
columns count bytes, and an offset behind the end of a source stands for its end.
-/

set_option autoImplicit false

namespace BuildLang

structure Position where
  line : Nat
  column : Nat
  offset : Nat
  deriving DecidableEq, Repr

namespace Position

def text (position : Position) : String :=
  s!"{position.line}:{position.column}"

/-- Places are ordered by line, then column, then offset. -/
def order (first second : Position) : Ordering :=
  (compare first.line second.line).then
    ((compare first.column second.column).then (compare first.offset second.offset))

end Position

/-- The offsets at which the lines of a source begin, but for the first one, which
begins at zero, and its size in bytes. -/
structure LineIndex where
  starts : List Nat
  size : Nat
  deriving Repr

namespace LineIndex

/-- The offset behind each newline of a text that begins at byte `offset`. -/
def startsFrom : Nat → List Char → List Nat
  | _, [] => []
  | offset, c :: rest =>
      let next := offset + c.utf8Size
      if c = '\n' then next :: startsFrom next rest else startsFrom next rest

def ofSource (source : String) : LineIndex :=
  ⟨startsFrom 0 source.toList, byteLength source.toList⟩

/-- The last line that begins at or before `offset`, and its start, given one that
does and the starts of those behind it. -/
def lineFrom (offset : Nat) : Nat → Nat → List Nat → Nat × Nat
  | line, start, [] => (line, start)
  | line, start, next :: rest =>
      if next ≤ offset then lineFrom offset (line + 1) next rest else (line, start)

/-- The place of a byte offset. -/
def position (index : LineIndex) (offset : Nat) : Position :=
  let inside := min offset index.size
  let (line, start) := lineFrom inside 1 0 index.starts
  ⟨line, inside - start + 1, inside⟩

end LineIndex

end BuildLang
