import BuildLang.Grammar.Statement
import BuildLang.Layout.File
import BuildLang.Settings.Table

/-!
# Settings

What a caller may choose, and how the choices are gathered: the defaults, then each
settings file in turn, then single overrides.  Values are taken in the spirit of
what is asked for, so a truth value may be written as a word or a number.
-/

set_option autoImplicit false

namespace BuildLang

structure Settings where
  recovery : Recovery := .on
  scope : PrintScope := .all
  indent : String := "    "
  level : String := "warn"
  deriving DecidableEq, Repr

/-- Settings that belong together: the key they stand under, what they are called in
messages, and their names in order. -/
structure SettingGroup where
  key : String
  title : String
  fields : List String
  deriving DecidableEq, Repr

inductive SettingsError where
  | missingFile (name : String)
  | malformedFile (name : String)
  | malformedKey (key : String)
  | wrongType (found wanted key : String) (origin : Option String)
  | notAGroup (found : String) (group : SettingGroup)
  | missingField (key : String)
  | tooFewItems (count : Nat) (group : SettingGroup)
  | unknownScope (name : String)
  | shapelessScope
  deriving DecidableEq, Repr

namespace SettingsError

def message : SettingsError → String
  | .missingFile name => s!"configuration file \"{name}\" not found"
  | .malformedFile name => s!"invalid TOML in {name}"
  | .malformedKey key => s!"invalid key {Dump.quote key}"
  | .wrongType found wanted key none =>
      s!"invalid type: {found}, expected {wanted} for key `{key}`"
  | .wrongType found wanted key (some origin) =>
      s!"invalid type: {found}, expected {wanted} for key `{key}` in {origin}"
  | .notAGroup found group => s!"invalid type: {found}, expected struct {group.title}"
  | .missingField key => s!"missing field `{key}`"
  | .tooFewItems count group =>
      let wanted := group.fields.length
      let noun := if wanted = 1 then "element" else "elements"
      s!"invalid length {count}, expected struct {group.title} with {wanted} {noun}"
  | .unknownScope name => s!"enum PrintScope does not have variant constructor {name}"
  | .shapelessScope =>
      "value of enum PrintScope should be represented by either string or table with " ++
        "exactly one key"

end SettingsError

/-- A settings file that was asked for: there is none of that name, or there is one
with a text, whose values name it as their origin. -/
inductive SettingsFile where
  | missing (name : String)
  | found (origin text : String)
  deriving DecidableEq, Repr

namespace Settings

/-- The settings that hold where nothing else is said. -/
def defaults : SettingTree :=
  .table [("parser", .table [("recovery", .scalar (.boolean true) none)] none),
    ("printer", .table [("scope", .scalar (.text "all") none),
      ("indent", .scalar (.text "    ") none)] none),
    ("logging", .table [("level", .scalar (.text "warn") none)] none)] none

def parserGroup : SettingGroup :=
  ⟨"parser", "ParserConfig", ["recovery"]⟩

def printerGroup : SettingGroup :=
  ⟨"printer", "PrinterConfig", ["scope", "indent"]⟩

def loggingGroup : SettingGroup :=
  ⟨"logging", "LoggingConfig", ["level"]⟩

/-! ## Reading single settings -/

def wrongType (tree : SettingTree) (wanted key : String) : SettingsError :=
  .wrongType tree.describe wanted key tree.origin?

/-- A truth value, or a word or a number that stands for one. -/
def readBoolean (key : String) : SettingTree → Except SettingsError Bool
  | .scalar (.boolean value) _ => .ok value
  | .scalar (.integer value) _ => .ok (value ≠ 0)
  | .scalar (.text word) origin =>
      let lower := Lowercase.ofString word
      if ["1", "true", "on", "yes"].contains lower then .ok true
      else if ["0", "false", "off", "no"].contains lower then .ok false
      else .error (wrongType (.scalar (.text lower) origin) "a boolean" key)
  | tree => .error (wrongType tree "a boolean" key)

/-- A text, or a truth value or a number as one. -/
def readText (key : String) : SettingTree → Except SettingsError String
  | .scalar (.text value) _ => .ok value
  | .scalar (.boolean value) _ => .ok (Dump.boolean value).text
  | .scalar (.integer value) _ => .ok (toString value)
  | tree => .error (wrongType tree "a string" key)

def scopeOfName (name : String) : Except SettingsError PrintScope :=
  if Lowercase.ofString name = "all" then .ok .all
  else if Lowercase.ofString name = "loads" then .ok .loads
  else .error (.unknownScope name)

/-- The name of a scope, or a table with that name as its only key. -/
def readScope : SettingTree → Except SettingsError PrintScope
  | .scalar (.text name) _ => scopeOfName name
  | .table [(name, _)] _ => scopeOfName name
  | _ => .error .shapelessScope

/-! ## Reading groups -/

/-- The settings of a group: by name in a table, or in order in a sequence. -/
def readGroup (group : SettingGroup) (tree : SettingTree) : Except SettingsError SettingTree :=
  match tree.child? group.key with
  | none => .error (.missingField group.key)
  | some (.scalar value _) => .error (.notAGroup value.describe group)
  | some members => .ok members

/-- The key and the value of a setting, if the group has it. -/
def member? (group : SettingGroup) (field : String) :
    SettingTree → Option (String × SettingTree)
  | .scalar .. => none
  | .sequence items =>
      let place := group.fields.idxOf field
      items[place]?.map fun item => (s!"{group.key}[{place}]", item)
  | .table entries _ =>
      (entries.lookup field).map fun value => (s!"{group.key}.{field}", value)

/-- Reads a setting of a group, if the group has it. -/
def readMember? {α : Type} (group : SettingGroup) (field : String)
    (read : String → SettingTree → Except SettingsError α) (members : SettingTree) :
    Except SettingsError (Option α) :=
  match member? group field members with
  | none => .ok none
  | some (key, value) => (read key value).map some

/-- A setting that was read, which may not be missing. -/
def require {α : Type} (group : SettingGroup) (field : String) (members : SettingTree) :
    Option α → Except SettingsError α
  | some value => .ok value
  | none =>
      match members with
      | .sequence items => .error (.tooFewItems items.length group)
      | _ => .error (.missingField field)

/-- The settings in a tree.  A setting of the wrong type is reported before one of its
group that is missing. -/
def ofTree (tree : SettingTree) : Except SettingsError Settings := do
  let parser ← readGroup parserGroup tree
  let recovery ← readMember? parserGroup "recovery" readBoolean parser
  let recovery ← require parserGroup "recovery" parser recovery
  let printer ← readGroup printerGroup tree
  let scope ← readMember? printerGroup "scope" (fun _ => readScope) printer
  let indent ← readMember? printerGroup "indent" readText printer
  let scope ← require printerGroup "scope" printer scope
  let indent ← require printerGroup "indent" printer indent
  let logging ← readGroup loggingGroup tree
  let level ← readMember? loggingGroup "level" readText logging
  let level ← require loggingGroup "level" logging level
  return ⟨if recovery then .on else .off, scope, indent, level⟩

/-! ## Gathering layers -/

/-- Puts a settings file over what was gathered before. -/
def addFile (tree : SettingTree) : SettingsFile → Except SettingsError SettingTree
  | .missing name => .error (.missingFile name)
  | .found origin text =>
      match SettingTree.ofText? origin text with
      | none => .error (.malformedFile origin)
      | some incoming => .ok (incoming.entries.foldl SettingTree.putEntry tree)

def readKey (override : String × Scalar) : Except SettingsError (SettingKey × Scalar) :=
  match SettingKey.ofString? override.1 with
  | none => .error (.malformedKey override.1)
  | some key => .ok (key, override.2)

/-- Puts an override over what was gathered before. -/
def addOverride (tree : SettingTree) (override : SettingKey × Scalar) : SettingTree :=
  SettingTree.putKey override.1 (.scalar override.2 none) tree

/-- Gathers settings.  Every key must make sense before a file is looked at. -/
def load (files : List SettingsFile) (overrides : List (String × Scalar)) :
    Except SettingsError Settings := do
  let overrides ← overrides.mapM readKey
  let tree ← files.foldlM addFile defaults
  ofTree (overrides.foldl addOverride tree)

def printOptions (settings : Settings) : PrintOptions :=
  ⟨settings.scope, settings.indent⟩

end Settings

end BuildLang
