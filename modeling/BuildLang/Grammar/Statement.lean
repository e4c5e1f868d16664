import BuildLang.Grammar.Value
import BuildLang.Tree.File

/-!
# Grammar of statements

`load` is a keyword.  A statement that begins with an identifier is a call if a
parenthesis follows and a declaration if an equals sign does; the names of the
package-level calls are reserved.  A malformed argument list of a rule or a
package can be skipped as a whole, up to the parenthesis that closes it.
-/

set_option autoImplicit false

namespace BuildLang

/-- Whether reading goes on behind a fault. -/
inductive Recovery where
  | on
  | off
  deriving DecidableEq, Repr

/-- The names that open a call of their own and so cannot name a rule. -/
def reservedNames : List String :=
  ["package", "package_group", "exports_files", "select"]

namespace Parser

variable {α : Type}

/-! ## Skipping an argument list -/

/-- What a search for the closing parenthesis has seen: how many parentheses are
open, by how much the openings of brackets and of braces outnumber their closings,
and the first closing one that had no opening. -/
structure Balance where
  parens : Nat
  brackets : Int := 0
  braces : Int := 0
  unclosed : Option Fault := none
  deriving Repr

namespace Balance

/-- The parenthesis that is open turns out not to be closed at `index`. -/
def unclosedAt (index : Nat) (found : Option Token) : Fault :=
  ⟨index, index, .unclosedParen, [.token .rightParen], found, .unknown⟩

/-- Notes the first place that makes no sense while only the outermost parenthesis
is open. -/
def note (balance : Balance) (index : Nat) (found : Option Token) : Balance :=
  if balance.parens = 1 && balance.unclosed.isNone then
    { balance with unclosed := some (unclosedAt index found) }
  else balance

/-- A token other than a parenthesis. -/
def step (balance : Balance) (index : Nat) : Token → Balance
  | .leftBracket => { balance with brackets := balance.brackets + 1 }
  | .rightBracket =>
      let closed := { balance with brackets := balance.brackets - 1 }
      if closed.brackets < 0 then closed.note index (some .rightBracket) else closed
  | .leftBrace => { balance with braces := balance.braces + 1 }
  | .rightBrace =>
      let closed := { balance with braces := balance.braces - 1 }
      if closed.braces < 0 then closed.note index (some .rightBrace) else closed
  | _ => balance

end Balance

/-- Searches for the parenthesis that closes the outermost open one: the fault
noted on the way, and the cursor behind it if there is one. -/
def closingParen (balance : Balance) (index : Nat) :
    List Token → Option Fault × Option Cursor
  | [] => ((balance.note index none).unclosed, none)
  | .leftParen :: rest =>
      closingParen { balance with parens := balance.parens + 1 } (index + 1) rest
  | .rightParen :: rest =>
      if balance.parens = 1 then (balance.unclosed, some ⟨index + 1, rest⟩)
      else closingParen { balance with parens := balance.parens - 1 } (index + 1) rest
  | lexeme :: rest => closingParen (balance.step index lexeme) (index + 1) rest

/-- Searches for the end of the parenthesised list that a cursor stands at. -/
def skipParens (cursor : Cursor) : Option Fault × Option Cursor :=
  match cursor.rest with
  | .leftParen :: rest => closingParen ⟨1, 0, 0, none⟩ (cursor.index + 1) rest
  | _ => (none, none)

/-- Reads a parenthesised list; one that cannot be read but is closed counts as
empty.  Its fault is reported unless one that got further tells more. -/
def recoverParens (list : Parser (List α)) : Parser (List α) :=
  fun cursor =>
    let reply := list cursor
    match reply.outcome with
    | .ok _ => reply
    | .error fault =>
        let (unclosed, closed) := skipParens cursor
        let faults := reply.faults ++ unclosed.toList
        match closed with
        | none => ⟨faults, .error fault⟩
        | some next =>
            match faults.getLast? with
            | some last =>
                ⟨if fault.reach < last.reach then faults ++ [fault] else faults,
                  .ok ⟨[], none, next⟩⟩
            | none => ⟨[fault], .ok ⟨[], none, next⟩⟩

def argumentList (recovery : Recovery) (trailing : TrailingComma) (item : Parser α) :
    Parser (List α) :=
  match recovery with
  | .on => recoverParens (callArguments (commaList trailing item))
  | .off => callArguments (commaList trailing item)

/-! ## Statements -/

def loadedSymbol : Parser (LoadedSymbol Nat) :=
  (stringLiteral.map fun symbol => .plain symbol.value symbol.position).orElse
    (mapAt (fun index pair => .renamed pair.1 pair.2.value (some index))
      ((identifierName.seqLeft (exactly .equals)).seq stringLiteral))

def load : Parser (Load Nat) :=
  within .load (mapAt (fun index pair => ⟨pair.1.value, pair.2, some index⟩)
    ((exactly .load).seqRight (callArguments
      ((stringLiteral.seqLeft (exactly .comma)).seq
        (commaList (.rejected .load) loadedSymbol)))))

/-- A name, an equals sign and a value. -/
def argument : Parser (Argument Nat) :=
  ((identifierName.seqLeft (exactly .equals)).seq value).map fun pair => ⟨pair.1, pair.2⟩

def declaration : Parser (Declaration Nat) :=
  mapAt (fun index argument => ⟨argument.name, argument.value, some index⟩) argument

def ruleName : Parser String :=
  within .ruleName (accept [.anyIdentifier] fun lexeme =>
    match lexeme with
    | .identifier name => if reservedNames.contains name then none else some name
    | _ => none)

def ruleAttribute : Parser (Attribute Nat) :=
  mapAt (fun index argument => ⟨argument.name, argument.value, some index⟩) argument

def rule (recovery : Recovery) : Parser (Rule Nat) :=
  mapAt (fun index pair => ⟨pair.1, pair.2, some index⟩)
    (ruleName.seq (argumentList recovery (.rejected .rule) ruleAttribute))

def package (recovery : Recovery) : Parser (Package Nat) :=
  mapAt (fun index arguments => Package.ofArguments (some index) arguments)
    ((keyword "package").seqRight (argumentList recovery .allowed argument))

def packageGroup (recovery : Recovery) : Parser (PackageGroup Nat) :=
  mapAt (fun index arguments => PackageGroup.ofArguments (some index) arguments)
    ((keyword "package_group").seqRight (argumentList recovery .allowed argument))

/-- The one further argument of `exports_files`, whatever its name. -/
def visibility : Parser (ArrayOrName Nat) :=
  (((exactly .comma).seqRight identifierName).seqLeft (exactly .equals)).seqRight arrayOrName

def exportsFiles : Parser (ExportsFiles Nat) :=
  mapAt (fun index pair => ⟨pair.1, pair.2, some index⟩)
    ((keyword "exports_files").seqRight (callArguments
      ((arrayOrName.seq (optional visibility)).seqLeft (optional (exactly .comma)))))

def statement (recovery : Recovery) : Parser (Statement Nat) :=
  choice [load.map .load, (package recovery).map .package,
    (packageGroup recovery).map .packageGroup, exportsFiles.map .exportsFiles,
    (rule recovery).map .rule, declaration.map .declaration]

/-- The tokens a statement can begin with. -/
def statementStart : Parser Unit :=
  (exactly .load).orElse
    ((identifierName.seq ((exactly .leftParen).orElse (exactly .equals))).map fun _ => ())

end BuildLang.Parser
