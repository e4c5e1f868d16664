import BuildLang.Position

/-!
# Diagnostics

What a caller is told about a source that is not a BUILD file, and the order and
wording in which it is told.
-/

set_option autoImplicit false

namespace BuildLang

/-- The stage that rejected the source. -/
inductive DiagnosticKind where
  | lexical
  | grammatical
  deriving DecidableEq, Repr

def DiagnosticKind.text : DiagnosticKind → String
  | .lexical => "lexical error"
  | .grammatical => "syntax error"

structure Diagnostic where
  kind : DiagnosticKind
  message : String
  position : Option Position
  deriving DecidableEq, Repr

namespace Diagnostic

def text (diagnostic : Diagnostic) : String :=
  match diagnostic.position with
  | some position => s!"{diagnostic.kind.text} at {position.text}: {diagnostic.message}"
  | none => s!"{diagnostic.kind.text}: {diagnostic.message}"

/-- The largest 64-bit offset, which no source reaches. -/
def lastOffset : Nat := 18446744073709551615

/-- Diagnostics without a place sort as if they stood at the last offset. -/
def sortKey (diagnostic : Diagnostic) : Nat :=
  match diagnostic.position with
  | some position => position.offset
  | none => lastOffset

/-- By place; those at one place keep their order. -/
def sort (diagnostics : List Diagnostic) : List Diagnostic :=
  diagnostics.mergeSort (fun first second => first.sortKey ≤ second.sortKey)

/-- All diagnostics, one a line. -/
def report (diagnostics : List Diagnostic) : String :=
  "\n".intercalate (diagnostics.map text)

def ofJunk (index : LineIndex) (run : JunkRun) : Diagnostic :=
  ⟨.lexical, s!"unrecognized input `{String.ofList run.text}`", some (index.position run.start)⟩

end Diagnostic

/-- The tokens of a source with their spans, or one diagnostic for each run of
junk in it. -/
def lex (source : String) : Except (List Diagnostic) (List Lexeme) :=
  match junkRuns source with
  | [] => .ok (tokenizeWithSpans source)
  | runs => .error (runs.map (Diagnostic.ofJunk (LineIndex.ofSource source)))

end BuildLang
