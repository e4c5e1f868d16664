import BuildLang.Layout.Emitter
import BuildLang.Tree.Value

/-!
# Writing values

Arrays, globs and literals stay on one line.  A dict takes a line for each entry,
with a comma behind every one.
-/

set_option autoImplicit false

namespace BuildLang

variable {π : Type}

def bracketed (items : List String) : String :=
  "[" ++ ", ".intercalate items ++ "]"

def ArrayLiteral.text (array : ArrayLiteral π) : String :=
  bracketed (array.elements.map Element.raw)

/-- The patterns of a glob, the ones to exclude under their name. -/
def Glob.text (glob : Glob π) : String :=
  let includes := glob.includes.map (fun patterns => bracketed (patterns.map Phrase.raw))
  let excludes := glob.excludes.map
    (fun patterns => "exclude = " ++ bracketed (patterns.map Phrase.raw))
  "glob(" ++ ", ".intercalate (includes.toList ++ excludes.toList) ++ ")"

namespace Emitter

def writeArrayOrName (out : Emitter) : ArrayOrName π → Emitter
  | .array node => out.print node.text
  | .identifier node => out.print node.name

/-- Braces around the entries that are written, or nothing between them if there are none. -/
def writeBraces (out : Emitter) (none : Bool) (entries : Emitter → Emitter) : Emitter :=
  if none then out.print "\x7b\x7d"
  else (entries (out.println "\x7b").indent).dedent.print "\x7d"

/-- The end of a select, with its message if it has one. -/
def writeMessage (out : Emitter) : Option (Phrase π) → Emitter
  | none => out.print ")"
  | some message => ((out.print ", no_match_error = ").print message.raw).print ")"

mutual

def writeValue (out : Emitter) : Value π → Emitter
  | .string literal => out.print literal.raw
  | .number literal => out.print literal.raw
  | .boolean literal => out.print literal.raw
  | .identifier node => out.print node.name
  | .array node => out.print node.text
  | .glob node => out.print node.text
  | .dict ⟨entries, _⟩ => out.writeBraces entries.isEmpty fun inner => writeEntries inner entries
  | .select ⟨.dict ⟨entries, _⟩, message, _⟩ =>
      ((out.print "select(").writeBraces entries.isEmpty
        fun inner => writeEntries inner entries).writeMessage message
  | .select ⟨.identifier node, message, _⟩ =>
      ((out.print "select(").print node.name).writeMessage message

/-- The entries of a dict, each on lines of its own. -/
def writeEntries (out : Emitter) : List (Entry π (Value π)) → Emitter
  | [] => out
  | ⟨key, value⟩ :: rest =>
      writeEntries ((writeValue ((out.print key.raw).print ": ") value).println ",") rest

end

end Emitter

end BuildLang
