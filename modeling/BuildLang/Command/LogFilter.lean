import BuildLang.Text.Blank

/-!
# Filters of the log

The text of a filter is directives parted by commas, and perhaps a pattern for
messages behind a slash.  A directive is a module or a level, or both with an equals
sign between them.  A directive that makes no sense is passed over with a warning.
-/

set_option autoImplicit false

namespace BuildLang

inductive LogFilterFault where
  | manySlashes (text : String)
  | unknownLevel (level : String)
  | malformed (directive : String)
  deriving DecidableEq, Repr

namespace LogFilterFault

def message : LogFilterFault → String
  | .manySlashes text => s!"invalid logging spec '{text}' (too many '/'s)"
  | .unknownLevel level => s!"invalid logging spec '{level}'"
  | .malformed directive => s!"invalid logging spec '{directive}'"

def warning (fault : LogFilterFault) : String :=
  s!"warning: {fault.message}, ignoring it\n"

end LogFilterFault

namespace LogFilter

def levelNames : List String :=
  ["off", "error", "warn", "info", "debug", "trace"]

def isLevel (name : String) : Bool :=
  levelNames.contains name.toLower

/-- What is wrong with a directive, if anything is.  A module may have an empty
level. -/
def directiveFault? (directive : String) : Option LogFilterFault :=
  match directive.splitOn "=" with
  | [_] => none
  | [_, level] =>
      let level := Blank.strip level
      if level = "" || isLevel level then none else some (.unknownLevel level)
  | _ => some (.malformed directive)

/-- What is wrong with the text of a filter.  More than one slash spoils it all. -/
def faults (text : String) : List LogFilterFault :=
  match text.splitOn "/" with
  | _ :: _ :: _ :: _ => [.manySlashes text]
  | directives :: _ => (directives.splitOn ",").map Blank.strip |>.filterMap directiveFault?
  | [] => []

end LogFilter

end BuildLang
