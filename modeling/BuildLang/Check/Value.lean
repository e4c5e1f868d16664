import BuildLang.Check.TextMatch
import BuildLang.Tree.Dump

/-!
# Checks of values

A check is an expectation about a node.  It is run at a context, the path that leads
to the node, and a failure names that path.
-/

set_option autoImplicit false

namespace BuildLang

/-- The failure of an equation that was expected to hold. -/
def equationText (message : String) (left right : Dump) : String :=
  s!"assertion `left == right` failed: {message}\n  left: {left.text}\n right: {right.text}"

def checkEqual {α : Type} [DecidableEq α] (dump : α → Dump) (message : String)
    (actual expected : α) : Verdict :=
  if actual = expected then .ok ()
  else .error (equationText message (dump actual) (dump expected))

def checkTexts (message : String) (actual expected : List String) : Verdict :=
  checkEqual Dump.strings message actual expected

/-- Runs checks in order, up to the first that fails. -/
def checkAll {γ : Type} (run : γ → Verdict) : List γ → Verdict
  | [] => .ok ()
  | check :: rest => do
      run check
      checkAll run rest

inductive GlobCheck where
  | includes (patterns : List String)
  | excludes (patterns : List String)
  | noIncludes
  | noExcludes
  deriving Repr

inductive SelectCheck where
  | constraintIdentifier (name : String)
  | constraintKeys (keys : List String)
  | noMatchError (text : Option String)
  deriving Repr

mutual

/-- A check of a value.  The last three take it for a node of one kind, which has
checks of its own. -/
inductive ValueCheck where
  | string (expected : String)
  | stringStartsWith (beginning : String)
  | number (expected : Binary64)
  | boolean (expected : Bool)
  | identifier (expected : String)
  | array (texts : List String)
  | glob (checks : List GlobCheck)
  | select (checks : List SelectCheck)
  | dict (checks : List DictCheck)

/-- A check of a dict; its entries hold values again. -/
inductive DictCheck where
  | keys (keys : List String)
  | value (key : String) (checks : List ValueCheck)

end

namespace GlobCheck

def patterns (list : Option (List (Phrase Position))) : Option (List String) :=
  list.map (List.map Phrase.text)

def dumpPatterns (list : Option (List String)) : Dump :=
  .option (list.map Dump.strings)

def run (context : String) (glob : Glob Position) : GlobCheck → Verdict
  | .includes expected =>
      checkEqual dumpPatterns s!"{context}: includes differ" (patterns glob.includes)
        (some expected)
  | .excludes expected =>
      checkEqual dumpPatterns s!"{context}: excludes differ" (patterns glob.excludes)
        (some expected)
  | .noIncludes =>
      if glob.includes.isNone then .ok () else .error s!"{context}: includes are set"
  | .noExcludes =>
      if glob.excludes.isNone then .ok () else .error s!"{context}: excludes are set"

end GlobCheck

namespace SelectCheck

def run (context : String) (select : Select Position (Value Position)) : SelectCheck → Verdict
  | .constraintIdentifier expected =>
      match select.constraint with
      | .identifier node => (TextMatch.exact expected).check node.name context
      | .dict _ => .error s!"{context}: Expected identifier constraint, found dict"
  | .constraintKeys expected =>
      match select.constraint with
      | .dict dict => checkTexts s!"{context}: constraint keys differ" dict.keys expected
      | .identifier node =>
          .error s!"{context}: Expected dict constraint, found identifier '{node.name}'"
  | .noMatchError expected =>
      checkEqual (fun text => .option (text.map Dump.string))
        s!"{context}: no_match_error differs" (select.noMatchError.map Phrase.text) expected

end SelectCheck

namespace ValueCheck

def wrongKind (context : String) (expected : NodeKind) (value : Value Position) : Verdict :=
  .error s!"{context}: Expected {expected.name}, found {value.kind.name}"

def runString (context : String) (expectation : TextMatch) : Value Position → Verdict
  | .string literal => expectation.check literal.value context
  | value => wrongKind context .stringLiteral value

def runNumber (context : String) (expected : Binary64) : Value Position → Verdict
  | .number literal =>
      if literal.value.equals expected then .ok ()
      else
        let wanted := DecimalStyle.plain.write expected
        .error (equationText s!"{context}: Expected {wanted}, found {literal.raw}"
          (.number literal.value) (.number expected))
  | value => wrongKind context .numberLiteral value

def runBoolean (context : String) (expected : Bool) : Value Position → Verdict
  | .boolean literal => checkEqual Dump.boolean context literal.value expected
  | value => wrongKind context .boolean value

def runIdentifier (context : String) (expected : String) : Value Position → Verdict
  | .identifier node => (TextMatch.exact expected).check node.name context
  | value => wrongKind context .identifier value

def runArray (context : String) (texts : List String) : Value Position → Verdict
  | .array node =>
      checkTexts s!"{context}: array elements differ" (node.elements.map Element.text) texts
  | value => wrongKind context .array value

mutual

def run (context : String) (value : Value Position) : ValueCheck → Verdict
  | .string expected => runString context (.exact expected) value
  | .stringStartsWith beginning => runString context (.startsWith beginning) value
  | .number expected => runNumber context expected value
  | .boolean expected => runBoolean context expected value
  | .identifier expected => runIdentifier context expected value
  | .array texts => runArray context texts value
  | .glob checks =>
      match value with
      | .glob node => checkAll (GlobCheck.run context node) checks
      | _ => wrongKind context .glob value
  | .select checks =>
      match value with
      | .select node => checkAll (SelectCheck.run context node) checks
      | _ => wrongKind context .select value
  | .dict checks =>
      match value with
      | .dict node => runDicts context node checks
      | _ => wrongKind context .dict value

def runAll (context : String) (value : Value Position) : List ValueCheck → Verdict
  | [] => .ok ()
  | check :: rest => do
      run context value check
      runAll context value rest

def runDict (context : String) (dict : Dict Position (Value Position)) : DictCheck → Verdict
  | .keys expected => checkTexts s!"{context}: keys differ" dict.keys expected
  | .value key checks =>
      match dict.get? key with
      | some value => runAll s!"{context}[\"{key}\"]" value checks
      | none => .error s!"{context}: no entry for key '{key}'"

def runDicts (context : String) (dict : Dict Position (Value Position)) :
    List DictCheck → Verdict
  | [] => .ok ()
  | check :: rest => do
      runDict context dict check
      runDicts context dict rest

end

end ValueCheck

end BuildLang
