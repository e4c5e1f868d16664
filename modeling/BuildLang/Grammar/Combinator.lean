import BuildLang.Grammar.Reply

/-!
# Combinators

The ways in which parsers are put together.  Sequences keep every fault that was
got past.  A choice takes the first alternative that yields a value and forgets
the faults of those before it.  Repetitions stop at the item that fails.
-/

set_option autoImplicit false

namespace BuildLang.Parser

variable {α β : Type}

/-- Accepts one token that `read` understands.  At the end of input nothing
particular is expected. -/
def accept (expected : List Expected) (read : Token → Option α) : Parser α :=
  fun cursor =>
    match cursor.rest with
    | [] => .failure (cursor.unexpected [])
    | lexeme :: rest =>
        match read lexeme with
        | some value => .success value ⟨cursor.index + 1, rest⟩
        | none => .failure (cursor.unexpected expected)

def exactly (lexeme : Token) : Parser Unit :=
  fun cursor =>
    match cursor.rest with
    | [] => .failure (cursor.unexpected [.token lexeme])
    | found :: rest =>
        if found = lexeme then .success () ⟨cursor.index + 1, rest⟩
        else .failure (cursor.unexpected [.token lexeme])

def finish : Parser Unit :=
  fun cursor =>
    match cursor.rest with
    | [] => .success () cursor
    | _ :: _ => .failure (cursor.unexpected [.endOfInput])

/-- Hands the value over together with the cursors around it. -/
def mapSpan (f : Cursor → Cursor → α → β) (parser : Parser α) : Parser β :=
  fun cursor =>
    let reply := parser cursor
    match reply.outcome with
    | .ok success =>
        ⟨reply.faults, .ok ⟨f cursor success.next success.value, success.hint, success.next⟩⟩
    | .error fault => ⟨reply.faults, .error fault⟩

def map (f : α → β) (parser : Parser α) : Parser β :=
  mapSpan (fun _ _ => f) parser

/-- Hands the value over together with the index of the token it starts at. -/
def mapAt (f : Nat → α → β) (parser : Parser α) : Parser β :=
  mapSpan (fun start _ => f start.index) parser

/-- Names the part of the grammar that faults happen in. -/
def within (part : Part) (parser : Parser α) : Parser α :=
  fun cursor =>
    let reply := parser cursor
    let faults := reply.faults.map (Fault.enter part)
    match reply.outcome with
    | .ok success => ⟨faults, .ok { success with hint := success.hint.map (Fault.enter part) }⟩
    | .error fault => ⟨faults, .error (fault.enter part)⟩

def seq (first : Parser α) (second : Parser β) : Parser (α × β) :=
  fun cursor =>
    let left := first cursor
    match left.outcome with
    | .error fault => ⟨left.faults, .error fault⟩
    | .ok begun =>
        let right := second begun.next
        let faults := left.faults ++ right.faults
        match right.outcome with
        | .error fault => ⟨faults, .error (fault.furthest begun.hint)⟩
        | .ok ended =>
            ⟨faults, .ok ⟨(begun.value, ended.value), Fault.latest begun.hint ended.hint,
              ended.next⟩⟩

/-- One parser behind the other, for the value of the second. -/
def seqRight (first : Parser α) (second : Parser β) : Parser β :=
  (first.seq second).map Prod.snd

/-- One parser behind the other, for the value of the first. -/
def seqLeft (first : Parser α) (second : Parser β) : Parser α :=
  (first.seq second).map Prod.fst

def between (opening closing : Token) (parser : Parser α) : Parser α :=
  ((exactly opening).seqRight parser).seqLeft (exactly closing)

/-- The first alternative that yields a value, even one with faults.  If all
fail, their furthest fault stays; `seen` is that of the alternatives before. -/
def firstOf (seen : Option Fault) : List (Parser α) → Parser α
  | [], cursor => .failure (seen.getD (cursor.unexpected []))
  | parser :: others, cursor =>
      let reply := parser cursor
      match reply.outcome with
      | .ok _ => reply
      | .error fault => firstOf (Fault.latest seen (some fault)) others cursor

def choice (alternatives : List (Parser α)) : Parser α :=
  firstOf none alternatives

/-- How far the last of some faults got. -/
def lastReach (faults : List Fault) : Option Nat :=
  faults.getLast?.map Fault.reach

/-- Compares where both sides are known, and calls it even elsewhere. -/
def compareKnown : Option Nat → Option Nat → Ordering
  | some first, some second => compare first second
  | _, _ => .eq

/-- Which of two replies is the better one: `lt` for the first, `gt` for the
second.  A value beats a failure.  Of two values the one with fewer faults is
better, of two failures the one that got further; what remains is decided by how
far the faults and hints got. -/
def preference (first second : Reply α) : Ordering :=
  let fewer := compare first.faults.length second.faults.length
  let later := compareKnown (lastReach second.faults) (lastReach first.faults)
  match first.outcome, second.outcome with
  | .ok _, .error _ => .lt
  | .error _, .ok _ => .gt
  | .ok left, .ok right =>
      fewer.then (later.then
        (compareKnown (right.hint.map Fault.reach) (left.hint.map Fault.reach)))
  | .error left, .error right => (compare right.reach left.reach).then (fewer.then later)

/-- Of two replies that are equally good, values keep the first and failures are
merged. -/
def balance (first second : Reply α) : Reply α :=
  match first.outcome, second.outcome with
  | .error left, .error right => ⟨first.faults, .error (left.furthest (some right))⟩
  | _, _ => first.withHint second.hint

/-- The better one of two replies, with what the other one tells. -/
def better (first second : Reply α) : Reply α :=
  match preference first second with
  | .lt => first.withHint second.hint
  | .gt => second.withHint first.hint
  | .eq => balance first second

def isClean (reply : Reply α) : Bool :=
  match reply.outcome with
  | .ok _ => reply.faults.isEmpty
  | .error _ => false

/-- The first parser if it yields a value without faults, else the second if that
does, else the better one. -/
def orElse (first second : Parser α) : Parser α :=
  fun cursor =>
    let left := first cursor
    if isClean left then left
    else
      let right := second cursor
      if isClean right then right.withHint left.hint else better left right

/-- The parser if it yields a value; otherwise nothing is read, and its fault is
kept as a hint. -/
def optional (parser : Parser α) : Parser (Option α) :=
  fun cursor =>
    let reply := parser cursor
    match reply.outcome with
    | .ok success => ⟨reply.faults, .ok ⟨some success.value, success.hint, success.next⟩⟩
    | .error fault => ⟨[], .ok ⟨none, some fault, cursor⟩⟩

/-- One token, provided that the parser fails on it. -/
def butNot (parser : Parser α) : Parser Token :=
  fun cursor =>
    match (parser cursor).outcome, cursor.rest with
    | .error _, lexeme :: rest => .success lexeme ⟨cursor.index + 1, rest⟩
    | _, _ => .failure (cursor.unexpected [])

def anyToken : Parser Token :=
  accept [] some

/-- Items read one after the other.  `hint` is that of the items before, and at
most `fuel` more are read. -/
def manyFrom (item : Parser α) : Nat → Option Fault → Parser (List α)
  | 0, hint, cursor => ⟨[], .ok ⟨[], hint, cursor⟩⟩
  | fuel + 1, hint, cursor =>
      let reply := item cursor
      match reply.outcome with
      | .error fault =>
          ⟨[], .ok ⟨[], Fault.latest hint (Fault.latest (some fault) reply.faults.head?),
            cursor⟩⟩
      | .ok success =>
          ((manyFrom item fuel (Fault.latest hint success.hint) success.next).after
            reply.faults).mapValue (success.value :: ·)

/-- As many items as there are.  Each takes a token at least, so the number of
tokens bounds theirs. -/
def many (item : Parser α) : Parser (List α) :=
  fun cursor => manyFrom item (cursor.rest.length + 1) none cursor

end BuildLang.Parser
