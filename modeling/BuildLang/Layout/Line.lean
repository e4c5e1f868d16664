/-!
# Lines

A laid-out text is a list of lines that know how deep they stand, not what one
level of depth looks like.  Only rendering writes the indentation, and an empty
line gets none.
-/

set_option autoImplicit false

namespace BuildLang

structure Line where
  depth : Nat
  text : String
  deriving DecidableEq, Repr

namespace Line

def single (text : String) : List Line :=
  [⟨0, text⟩]

/-- Two texts one behind the other: the last line of the first goes on with the
first line of the second. -/
def beside : List Line → List Line → List Line
  | [], lines => lines
  | [line], [] => [line]
  | [line], next :: lines => ⟨line.depth, line.text ++ next.text⟩ :: lines
  | line :: next :: others, lines => line :: beside (next :: others) lines

def besideAll (texts : List (List Line)) : List Line :=
  texts.foldr beside []

def nested (lines : List Line) : List Line :=
  lines.map (fun line => ⟨line.depth + 1, line.text⟩)

/-- A line between an opening and a closing one, or no break if there is none. -/
def block (opening : String) (lines : List Line) (closing : String) : List Line :=
  match lines with
  | [] => single (opening ++ closing)
  | _ => single opening ++ nested lines ++ single closing

/-- A line as it is written, without its end. -/
def render (line : Line) (indent : String) : String :=
  if line.text.isEmpty then ""
  else String.join (List.replicate line.depth indent) ++ line.text

end Line

end BuildLang
