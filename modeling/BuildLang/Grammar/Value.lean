import BuildLang.Grammar.CommaList
import BuildLang.Tree.Value

/-!
# Grammar of values

The first token decides between the kinds of values, except that `select` is a
call if a parenthesis follows and a name if none does.  Trees are read with the
index of the first token of each node as its place.
-/

set_option autoImplicit false

namespace BuildLang.Parser

def identifierName : Parser String :=
  within .identifier (accept [.anyIdentifier] fun lexeme =>
    match lexeme with
    | .identifier name => some name
    | _ => none)

def keyword (name : String) : Parser Unit :=
  accept [.token (.identifier name)] fun lexeme =>
    if lexeme = .identifier name then some () else none

def stringLiteral : Parser (StringLiteral Nat) :=
  within .string (mapAt (fun index raw => ⟨raw, some index⟩)
    (accept [.anyString] fun lexeme =>
      match lexeme with
      | .string raw => some raw
      | _ => none))

def numberLiteral : Parser (NumberLiteral Nat) :=
  within .number (mapAt (fun index raw => ⟨raw, some index⟩)
    (accept [.anyNumber] fun lexeme =>
      match lexeme with
      | .number raw => some raw
      | _ => none))

def booleanLiteral : Parser (BooleanLiteral Nat) :=
  mapAt (fun index value => ⟨value, some index⟩)
    (accept [.token (.boolean true), .token (.boolean false)] fun lexeme =>
      match lexeme with
      | .boolean value => some value
      | _ => none)

/-- A name that stands for a value. -/
def identifier : Parser (Identifier Nat) :=
  mapAt (fun index name => ⟨name, some index⟩) identifierName

def phrase : Parser (Phrase Nat) :=
  choice [stringLiteral.map .string, identifier.map .identifier]

def element : Parser (Element Nat) :=
  choice [stringLiteral.map .string, numberLiteral.map .number, booleanLiteral.map .boolean,
    identifier.map .identifier]

def arrayLiteral : Parser (ArrayLiteral Nat) :=
  within .array (mapAt (fun index elements => ⟨elements, some index⟩)
    ((commaList (.rejected .array) element).between .leftBracket .rightBracket))

def arrayOrName : Parser (ArrayOrName Nat) :=
  (arrayLiteral.map .array).orElse (identifier.map .identifier)

/-- An entry, given how its value is read. -/
def entry (value : Parser (Value Nat)) : Parser (Entry Nat (Value Nat)) :=
  ((stringLiteral.seqLeft (exactly .colon)).seq value).map fun pair => ⟨pair.1, pair.2⟩

/-- A dict, given how the values in it are read. -/
def dict (value : Parser (Value Nat)) : Parser (Dict Nat (Value Nat)) :=
  within .dict (mapAt (fun index entries => ⟨entries, some index⟩)
    ((commaList .allowed (entry value)).between .leftBrace .rightBrace))

end Parser

inductive GlobArgument (π : Type) where
  | includes (patterns : List (Phrase π))
  | excludes (patterns : List (Phrase π))

namespace GlobArgument

variable {π : Type}

/-- A named list is one of patterns to include if its name is `include`, in
whatever letter case, and one of patterns to exclude under any other name. -/
def named (name : String) (patterns : List (Phrase π)) : GlobArgument π :=
  if name.toLower = "include" then .includes patterns else .excludes patterns

/-- The glob with a list put in its place, over any earlier one. -/
def store (glob : Glob π) : GlobArgument π → Glob π
  | .includes patterns => { glob with includes := some patterns }
  | .excludes patterns => { glob with excludes := some patterns }

end GlobArgument

def Glob.ofArguments {π : Type} (position : Option π) (arguments : List (GlobArgument π)) :
    Glob π :=
  arguments.foldl GlobArgument.store { position }

namespace Parser

def patterns : Parser (List (Phrase Nat)) :=
  (commaList (.rejected .array) phrase).between .leftBracket .rightBracket

def globArgument : Parser (GlobArgument Nat) :=
  (patterns.map .includes).orElse
    (((identifierName.seqLeft (exactly .equals)).seq patterns).map fun pair =>
      .named pair.1 pair.2)

def glob : Parser (Glob Nat) :=
  within .glob (mapAt (fun index arguments => Glob.ofArguments (some index) arguments)
    ((exactly .glob).seqRight (callArguments (commaList .allowed globArgument))))

/-- What a select chooses from, given how the values of a dict are read. -/
def constraint (value : Parser (Value Nat)) : Parser (Constraint Nat (Value Nat)) :=
  ((dict value).map .dict).orElse (identifier.map .identifier)

def noMatchError : Parser (Phrase Nat) :=
  (((exactly .comma).seqRight (keyword "no_match_error")).seqRight (exactly .equals)).seqRight
    phrase

/-- A select call, given how the values of a dict are read. -/
def select (value : Parser (Value Nat)) : Parser (Select Nat (Value Nat)) :=
  within .select (mapAt (fun index pair => ⟨pair.1, pair.2, some index⟩)
    ((keyword "select").seqRight
      (callArguments ((constraint value).seq (optional noMatchError)))))

/-- A value, given how the values of the dicts in it are read. -/
def valueOver (value : Parser (Value Nat)) : Parser (Value Nat) :=
  within .value (choice [stringLiteral.map .string, numberLiteral.map .number,
    booleanLiteral.map .boolean, arrayLiteral.map .array, glob.map .glob,
    (dict value).map .dict, (select value).map .select, identifier.map .identifier])

/-- A value in which dicts are nested less than `depth` deep. -/
def valueWithin : Nat → Parser (Value Nat)
  | 0 => fun cursor => .failure (cursor.unexpected [])
  | depth + 1 => valueOver (valueWithin depth)

/-- Any value.  A dict takes a token before each value in it, so no value is nested
deeper than there are tokens. -/
def value : Parser (Value Nat) :=
  fun cursor => valueWithin (cursor.rest.length + 1) cursor

end BuildLang.Parser
