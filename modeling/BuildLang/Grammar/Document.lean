import BuildLang.Grammar.Statement

/-!
# Grammar of documents

A document is a list of statements up to the end of input.  With recovery, input
that starts no statement is reported and skipped up to the next token that could
start one, so that every token belongs to exactly one step.
-/

set_option autoImplicit false

namespace BuildLang

/-- A statement and the tokens it was read from, from `start` up to `stop`. -/
structure Step where
  start : Nat
  stop : Nat
  statement : Statement Nat

namespace Parser

def step (parser : Parser (Statement Nat)) : Parser Step :=
  mapSpan (fun start stop statement => ⟨start.index, stop.index, statement⟩) parser

/-- Tokens that are no statement: one, and all behind it that start none. -/
def skipped : Parser Step :=
  step ((anyToken.seq (many (butNot statementStart))).map fun _ => .skipped)

/-- Reads with `fallback` where `parser` fails, and reports that failure. -/
def recoverWith {α : Type} (parser fallback : Parser α) : Parser α :=
  fun cursor =>
    let reply := parser cursor
    match reply.outcome with
    | .ok _ => reply
    | .error fault => (fallback cursor).after (reply.faults ++ [fault])

def documentStep : Recovery → Parser Step
  | .on => recoverWith (step (statement .on)) skipped
  | .off => step (statement .off)

def document (recovery : Recovery) : Parser (List Step) :=
  (many (documentStep recovery)).seqLeft finish

end Parser

/-- The steps of a token list, or none if it was not read to its end, and every
fault in it. -/
def readSteps (recovery : Recovery) (tokens : List Token) : Option (List Step) × List Fault :=
  let reply := Parser.document recovery (.start tokens)
  match reply.outcome with
  | .ok success => (some success.value, reply.faults)
  | .error fault => (none, reply.faults ++ [fault])

end BuildLang
