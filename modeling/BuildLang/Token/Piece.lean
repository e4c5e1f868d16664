import BuildLang.Token
import BuildLang.Token.Pattern

/-!
# Pieces of a source

A source is cut into pieces: tokens, blanks, and junk that no token pattern
takes.  Nothing is lost, so the pieces written one after the other are the
source again, and every span is the sum of the sizes before it.
-/

set_option autoImplicit false

namespace BuildLang

/-- The number of bytes a text takes in UTF-8. -/
def byteLength (text : List Char) : Nat :=
  text.foldr (fun c total => c.utf8Size + total) 0

/-- A cut-off part of a source. -/
inductive Piece where
  | token (lexeme : Token)
  | blank (char : Char)
  | junk (text : List Char)
  deriving DecidableEq, Repr

namespace Piece

def chars : Piece → List Char
  | .token lexeme => lexeme.text.toList
  | .blank c => [c]
  | .junk text => text

def size (piece : Piece) : Nat :=
  byteLength piece.chars

/-- The piece at the front of `c :: rest`.  The four kinds of lexeme begin with
different characters, so the first one that matches is the longest one. -/
def first (c : Char) (rest : List Char) : Piece :=
  if Pattern.isBlank c then .blank c
  else if c = '"' then
    match Pattern.stringReach rest with
    | .closed length => .token (.string (String.ofList (c :: rest.take length)))
    | .broken length => .junk (c :: rest.take length)
  else
    match Pattern.wordLength (c :: rest), Pattern.numberLength (c :: rest) with
    | 0, 0 =>
        match Token.ofMark? c with
        | some lexeme => .token lexeme
        | none => .junk [c]
    | 0, number => .token (.number (String.ofList ((c :: rest).take number)))
    | word, _ => .token (.ofWord (String.ofList ((c :: rest).take word)))

/-- The pieces of a text whose first `skip` characters already belong to the
piece before it. -/
def ofTextFrom : Nat → List Char → List Piece
  | _, [] => []
  | 0, c :: rest =>
      let piece := first c rest
      piece :: ofTextFrom (piece.chars.length - 1) rest
  | skip + 1, _ :: rest => ofTextFrom skip rest

def ofText (text : List Char) : List Piece :=
  ofTextFrom 0 text

end Piece

/-- A token together with the bytes it covers, from `start` up to `stop`. -/
structure Lexeme where
  token : Token
  start : Nat
  stop : Nat
  deriving DecidableEq, Repr

/-- A stretch of a source that holds no token and no blank. -/
structure JunkRun where
  start : Nat
  text : List Char
  deriving DecidableEq, Repr

namespace Piece

/-- The tokens among the pieces that begin at byte `offset`. -/
def lexemesFrom : Nat → List Piece → List Lexeme
  | _, [] => []
  | offset, piece :: rest =>
      let stop := offset + piece.size
      match piece with
      | .token lexeme => ⟨lexeme, offset, stop⟩ :: lexemesFrom stop rest
      | _ => lexemesFrom stop rest

/-- The junk among the pieces that begin at byte `offset`; neighbours that touch
make one run. -/
def junkRunsFrom : Nat → List Piece → List JunkRun
  | _, [] => []
  | offset, piece :: rest =>
      let stop := offset + piece.size
      let later := junkRunsFrom stop rest
      match piece with
      | .junk text =>
          match later with
          | [] => [⟨offset, text⟩]
          | run :: others =>
              if run.start = stop then ⟨offset, text ++ run.text⟩ :: others
              else ⟨offset, text⟩ :: run :: others
      | _ => later

end Piece

/-- Every token of a source with its span; junk is dropped. -/
def tokenizeWithSpans (source : String) : List Lexeme :=
  Piece.lexemesFrom 0 (Piece.ofText source.toList)

/-- Every token of a source; junk is dropped. -/
def tokenize (source : String) : List Token :=
  (tokenizeWithSpans source).map Lexeme.token

/-- The runs of a source that are neither token nor blank. -/
def junkRuns (source : String) : List JunkRun :=
  Piece.junkRunsFrom 0 (Piece.ofText source.toList)

end BuildLang
