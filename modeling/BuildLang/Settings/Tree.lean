import BuildLang.Settings.Key
import BuildLang.Text.Dump
import BuildLang.Text.Lowercase

/-!
# Trees of settings

Settings come in layers.  A later layer goes over an earlier one key by key: its
scalars replace what was there, its tables are merged.  Letter case of keys does
not count.
-/

set_option autoImplicit false

namespace BuildLang

/-- A value without anything below it. -/
inductive Scalar where
  | absent
  | boolean (value : Bool)
  | integer (value : Int)
  | text (value : String)
  deriving DecidableEq, Repr

def Scalar.describe : Scalar → String
  | .absent => "unit value"
  | .boolean value => s!"boolean `{(Dump.boolean value).text}`"
  | .integer value => s!"integer `{value}`"
  | .text value => s!"string {Dump.quote value}"

/-- A scalar, a sequence or a table.  A scalar from a file names the file as its
origin, and so does a table that was taken from one as it is. -/
inductive SettingTree where
  | scalar (value : Scalar) (origin : Option String)
  | sequence (items : List SettingTree)
  | table (entries : List (String × SettingTree)) (origin : Option String)

namespace SettingTree

def absent : SettingTree :=
  .scalar .absent none

def empty : SettingTree :=
  .table [] none

def describe : SettingTree → String
  | .scalar value _ => value.describe
  | .sequence _ => "sequence"
  | .table .. => "map"

def origin? : SettingTree → Option String
  | .scalar _ origin => origin
  | .sequence _ => none
  | .table _ origin => origin

/-- The entries of a table; nothing else has any. -/
def entries : SettingTree → List (String × SettingTree)
  | .table entries _ => entries
  | _ => []

/-- The items of a sequence; nothing else has any. -/
def items : SettingTree → List SettingTree
  | .sequence items => items
  | _ => []

def child? (tree : SettingTree) (key : String) : Option SettingTree :=
  tree.entries.lookup key

/-- The entries with one of them set, in its old place if it had one. -/
def replace (key : String) (value : SettingTree) :
    List (String × SettingTree) → List (String × SettingTree)
  | [] => [(key, value)]
  | (name, old) :: rest =>
      if name = key then (name, value) :: rest else (name, old) :: replace key value rest

def setChild (tree : SettingTree) (key : String) (value : SettingTree) : SettingTree :=
  match tree with
  | .table entries origin => .table (replace key value entries) origin
  | _ => .table [(key, value)] none

/-! ## Merging -/

mutual

/-- Puts a value over the entry with the given key. -/
def put (key : String) : SettingTree → SettingTree → SettingTree
  | .scalar value origin, tree =>
      tree.setChild (Lowercase.ofString key) (.scalar value origin)
  | .sequence items, tree => tree.setChild (Lowercase.ofString key) (.sequence items)
  | .table incoming _, tree =>
      let old := (tree.child? (Lowercase.ofString key)).getD .empty
      tree.setChild (Lowercase.ofString key) (putAll incoming old)

/-- Puts some entries over a tree; without any, even a scalar stays. -/
def putAll : List (String × SettingTree) → SettingTree → SettingTree
  | [], tree => tree
  | (key, value) :: rest, tree => putAll rest (put key value tree)

end

/-! ## Paths -/

def changeChild (tree : SettingTree) (key : String) (change : SettingTree → SettingTree) :
    SettingTree :=
  let key := Lowercase.ofString key
  tree.setChild key (change ((tree.child? key).getD .absent))

/-- Items with room for an index, and the place the index means. -/
def makeRoom (index : Int) (items : List SettingTree) : List SettingTree × Nat :=
  if 0 ≤ index then
    let place := index.toNat
    (items ++ List.replicate (place + 1 - items.length) .absent, place)
  else
    let back := index.natAbs
    (List.replicate (back - items.length) .absent ++ items, items.length - back)

def changeItem (tree : SettingTree) (index : Int) (change : SettingTree → SettingTree) :
    SettingTree :=
  let (items, place) := makeRoom index tree.items
  .sequence (items.modify place change)

/-- Puts a value at the end of a path, through whatever is in the way.  A table is
merged into the entry of that name, but an item is replaced as a whole. -/
def putAt (value : SettingTree) : SettingStep → List SettingStep → SettingTree → SettingTree
  | .name key, [], tree => put key value tree
  | .index index, [], tree => tree.changeItem index fun _ => value
  | .name key, next :: rest, tree => tree.changeChild key (putAt value next rest)
  | .index index, next :: rest, tree => tree.changeItem index (putAt value next rest)

def putKey (key : SettingKey) (value tree : SettingTree) : SettingTree :=
  putAt value (.name key.first) key.rest tree

/-- Puts an entry of a settings file over a tree.  Its key may be a path; if it makes
none, it is a name. -/
def putEntry (tree : SettingTree) (entry : String × SettingTree) : SettingTree :=
  match SettingKey.ofString? entry.1 with
  | some key => putKey key entry.2 tree
  | none => put entry.1 entry.2 tree

end SettingTree

end BuildLang
