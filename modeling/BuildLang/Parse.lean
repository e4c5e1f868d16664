import BuildLang.Diagnostic
import BuildLang.Placement

/-!
# Parsing

From sources, or from tokens made elsewhere, to trees.  The grammar only counts
tokens; here its indices become places in the source, and whatever it complains
about is put in order.
-/

set_option autoImplicit false

namespace BuildLang

/-- The tree of a token list, if it was read to its end, and all remarks on it, the
grammatical ones first. -/
structure Reading where
  file : Option (BuildFile Nat)
  remarks : List Remark

def Fault.toRemark (fault : Fault) : Remark :=
  ⟨fault.start, fault.message⟩

def readTokens (recovery : Recovery) (tokens : List Token) : Reading :=
  match readSteps recovery tokens with
  | (none, faults) => ⟨none, faults.map Fault.toRemark⟩
  | (some steps, faults) =>
      let assembly := assemble steps
      -- Without recovery a single fault leaves no tree.
      if recovery = .off && !faults.isEmpty then ⟨none, faults.map Fault.toRemark⟩
      else ⟨some assembly.file, faults.map Fault.toRemark ++ assembly.remarks⟩

/-- The place of a token, or of the end of input behind the last one. -/
def tokenPosition (lines : LineIndex) (lexemes : Array Lexeme) (index : Nat) : Position :=
  match lexemes[index]? with
  | some lexeme => lines.position lexeme.start
  | none => lines.position lines.size

def Remark.toDiagnostic (place : Nat → Position) (remark : Remark) : Diagnostic :=
  ⟨.grammatical, remark.message, some (place remark.start)⟩

/-- A tree with the diagnostics on the tokens it was read from. -/
structure Parsed where
  file : Option (BuildFile Position)
  diagnostics : List Diagnostic

/-- Reads tokens that carry spans into `source`.  Spans behind its end stand for its
end. -/
def parseLexemes (recovery : Recovery) (lexemes : List Lexeme) (source : String) : Parsed :=
  let place := tokenPosition (.ofSource source) lexemes.toArray
  let reading := readTokens recovery (lexemes.map Lexeme.token)
  ⟨reading.file.map (BuildFile.mapPosition place),
    Diagnostic.sort (reading.remarks.map (Remark.toDiagnostic place))⟩

/-- The tree, unless there is something to complain about. -/
def Parsed.toExcept (parsed : Parsed) : Except (List Diagnostic) (BuildFile Position) :=
  match parsed.file, parsed.diagnostics with
  | some file, [] => .ok file
  | _, diagnostics => .error diagnostics

/-- Reads tokens; any diagnostic is an error. -/
def parseTokens (recovery : Recovery) (lexemes : List Lexeme) (source : String) :
    Except (List Diagnostic) (BuildFile Position) :=
  (parseLexemes recovery lexemes source).toExcept

/-- Reads tokens with recovery, for whatever tree there is. -/
def parseTokensRecovering (lexemes : List Lexeme) (source : String) : Parsed :=
  parseLexemes .on lexemes source

/-- Reads a source.  Lexical errors come alone. -/
def parseWith (recovery : Recovery) (source : String) :
    Except (List Diagnostic) (BuildFile Position) := do
  let lexemes ← lex source
  parseTokens recovery lexemes source

def parse (source : String) : Except (List Diagnostic) (BuildFile Position) :=
  parseWith .on source

/-- Reads a source for whatever tree there is; after lexical errors there is none. -/
def parseRecovering (source : String) : Parsed :=
  match lex source with
  | .ok lexemes => parseTokensRecovering lexemes source
  | .error diagnostics => ⟨none, diagnostics⟩

end BuildLang
