import BuildLang.Text.Dump

/-!
# Text matches

What a text may be expected to look like, and how the expectation is told.
-/

set_option autoImplicit false

namespace BuildLang

/-- The outcome of a check: nothing to say, or what is wrong. -/
abbrev Verdict := Except String Unit

inductive TextMatch where
  | exact (expected : String)
  | startsWith (beginning : String)
  | contains (part : String)
  | oneOf (options : List String)
  deriving DecidableEq, Repr

namespace TextMatch

def occursIn (part : List Char) : List Char → Bool
  | [] => part.isEmpty
  | c :: rest => part.isPrefixOf (c :: rest) || occursIn part rest

def accepts : TextMatch → String → Bool
  | .exact expected, actual => actual = expected
  | .startsWith beginning, actual => beginning.toList.isPrefixOf actual.toList
  | .contains part, actual => occursIn part.toList actual.toList
  | .oneOf options, actual => options.contains actual

def describe : TextMatch → String
  | .exact expected => s!"'{expected}'"
  | .startsWith beginning => s!"text starting with '{beginning}'"
  | .contains part => s!"text containing '{part}'"
  | .oneOf options => s!"one of {(Dump.strings options).text}"

def check (expectation : TextMatch) (actual context : String) : Verdict :=
  if expectation.accepts actual then .ok ()
  else .error s!"{context}: Expected {expectation.describe}, but got '{actual}'"

end TextMatch

end BuildLang
