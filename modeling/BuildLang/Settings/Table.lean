import BuildLang.Settings.Tree

/-!
# Settings files

A settings file is a list of lines: headers that open a table, and keys set to a
string, a truth value or a whole number.  No key may be set twice and no table
opened twice, but a header may name a table inside one that no header opened yet.
-/

set_option autoImplicit false

namespace BuildLang

/-- How a table of a settings file came about: by its own header, by the header of a
table in it, or by a key with points. -/
inductive TableOrigin where
  | header
  | implied
  | dotted
  deriving DecidableEq, Repr

/-- An entry of a settings file. -/
inductive FileEntry where
  | value (value : Scalar)
  | table (origin : TableOrigin) (entries : List (String × FileEntry))

namespace FileEntry

def replace (key : String) (value : FileEntry) :
    List (String × FileEntry) → List (String × FileEntry)
  | [] => [(key, value)]
  | (name, old) :: rest =>
      if name = key then (name, value) :: rest else (name, old) :: replace key value rest

def openTable? : List String → List (String × FileEntry) → Option (List (String × FileEntry))
  | [], _ => none
  | [key], entries =>
      match entries.lookup key with
      | none => some (replace key (.table .header []) entries)
      | some (.table .implied inner) => some (replace key (.table .header inner) entries)
      | some _ => none
  | key :: path, entries =>
      match entries.lookup key with
      | none => (openTable? path []).map fun inner => replace key (.table .implied inner) entries
      | some (.table origin inner) =>
          (openTable? path inner).map fun inner => replace key (.table origin inner) entries
      | some (.value _) => none

/-- Sets a key with points, from the table it is written in. -/
def assign? (value : Scalar) :
    List String → List (String × FileEntry) → Option (List (String × FileEntry))
  | [], _ => none
  | [key], entries =>
      match entries.lookup key with
      | none => some (replace key (.value value) entries)
      | some _ => none
  | key :: path, entries =>
      match entries.lookup key with
      | none =>
          (assign? value path []).map fun inner => replace key (.table .dotted inner) entries
      | some (.table .dotted inner) =>
          (assign? value path inner).map fun inner => replace key (.table .dotted inner) entries
      | some (.table .implied inner) =>
          if path.length = 1 then none
          else
            (assign? value path inner).map fun inner =>
              replace key (.table .implied inner) entries
      | some _ => none

/-- Sets a key inside the table at a path, which is open. -/
def assignIn? (value : Scalar) (keys : List String) :
    List String → List (String × FileEntry) → Option (List (String × FileEntry))
  | [], entries => assign? value keys entries
  | key :: path, entries =>
      match entries.lookup key with
      | some (.table origin inner) =>
          (assignIn? value keys path inner).map fun inner =>
            replace key (.table origin inner) entries
      | _ => none

mutual

/-- The settings an entry holds, as those of the file `origin`. -/
def toTree (origin : String) : FileEntry → SettingTree
  | .value scalar => .scalar scalar (some origin)
  | .table _ entries => .table (entriesToTree origin entries) (some origin)

def entriesToTree (origin : String) :
    List (String × FileEntry) → List (String × SettingTree)
  | [] => []
  | (key, entry) :: rest => (key, toTree origin entry) :: entriesToTree origin rest

end

end FileEntry

/-! ## Lines -/

namespace SettingsLine

def isBlank (c : Char) : Bool :=
  c = ' ' || c = '\t'

def skipBlanks (text : List Char) : List Char :=
  text.dropWhile isBlank

/-- A comment may hold anything but control characters; a tab is none of them. -/
def isCommentChar (c : Char) : Bool :=
  c = '\t' || (32 ≤ c.toNat && c ≠ '\x7f')

/-- Nothing but blanks and perhaps a comment. -/
def isDone (text : List Char) : Bool :=
  match skipBlanks text with
  | [] => true
  | c :: rest => c = '#' && rest.all isCommentChar

def isBareKeyChar (c : Char) : Bool :=
  c.isAlphanum || c = '_' || c = '-'

def hexValue? (c : Char) : Option Nat :=
  if c.isDigit then some (c.toNat - '0'.toNat)
  else if 'a' ≤ c && c ≤ 'f' then some (c.toNat - 'a'.toNat + 10)
  else if 'A' ≤ c && c ≤ 'F' then some (c.toNat - 'A'.toNat + 10)
  else none

/-- The character with the given number, unless there is none. -/
def charOf? (code : Nat) : Option Char :=
  if code < 0xd800 || (0xdfff < code && code < 0x110000) then some (Char.ofNat code) else none

/-- The character that `count` hexadecimal digits denote. -/
def hexChar? (digits : List Char) : Option Char := do
  let values ← digits.mapM hexValue?
  charOf? (values.foldl (fun code digit => 16 * code + digit) 0)

def escaped? (c : Char) : Option Char :=
  if c = 'b' then some '\x08'
  else if c = 't' then some '\t'
  else if c = 'n' then some '\n'
  else if c = 'f' then some '\x0c'
  else if c = 'r' then some '\r'
  else if c = '"' then some '"'
  else if c = '\\' then some '\\'
  else none

/-- The rest of a string behind its opening quote: what it means, and what stands
behind the closing quote. -/
def readString? : List Char → Option (List Char × List Char)
  | [] => none
  | '\\' :: 'u' :: a :: b :: c :: d :: rest => do
      let char ← hexChar? [a, b, c, d]
      let (content, rest) ← readString? rest
      return (char :: content, rest)
  | '\\' :: 'U' :: a :: b :: c :: d :: e :: f :: g :: h :: rest => do
      let char ← hexChar? [a, b, c, d, e, f, g, h]
      let (content, rest) ← readString? rest
      return (char :: content, rest)
  | '\\' :: mark :: rest => do
      let char ← escaped? mark
      let (content, rest) ← readString? rest
      return (char :: content, rest)
  | c :: rest =>
      if c = '"' then some ([], rest)
      else if c = '\\' || (c.toNat < 32 && c ≠ '\t') || c = '\x7f' then none
      else (readString? rest).map fun pair => (c :: pair.1, pair.2)

/-- One name of a key: bare or in quotes. -/
def readName? (text : List Char) : Option (String × List Char) :=
  match text with
  | '"' :: rest => (readString? rest).map fun pair => (String.ofList pair.1, pair.2)
  | _ =>
      match text.takeWhile isBareKeyChar with
      | [] => none
      | name => some (String.ofList name, text.dropWhile isBareKeyChar)

/-- At most so many names parted by points, and what stands behind them. -/
def readNames? : Nat → List Char → Option (List String × List Char)
  | 0, _ => none
  | limit + 1, text => do
      let (name, rest) ← readName? (skipBlanks text)
      match skipBlanks rest with
      | '.' :: rest =>
          let (names, rest) ← readNames? limit rest
          return (name :: names, rest)
      | rest => return ([name], rest)

/-- The names of a key, and what stands behind them.  No key goes deeper than 79
names. -/
def readKey? (text : List Char) : Option (List String × List Char) :=
  readNames? 79 text

/-- Digits of a base, with single underscores between them. -/
def readDigits? (base : Nat) (text : List Char) : Option Nat :=
  let groups := (String.ofList text).splitOn "_"
  if groups.any String.isEmpty then none
  else do
    let digits ← (text.filter (· ≠ '_')).mapM hexValue?
    if digits.all (· < base) then
      some (digits.foldl (fun number digit => base * number + digit) 0)
    else none

/-- A number without its sign; only a lone zero begins with one. -/
def readNatural? (text : List Char) : Option Nat :=
  if text.head? = some '0' && 1 < text.length then none else readDigits? 10 text

def readInteger? (text : List Char) : Option Int :=
  match text with
  | '+' :: digits => (readNatural? digits).map Int.ofNat
  | '-' :: digits => (readNatural? digits).map fun number => -(number : Int)
  | '0' :: 'x' :: digits => (readDigits? 16 digits).map Int.ofNat
  | '0' :: 'o' :: digits => (readDigits? 8 digits).map Int.ofNat
  | '0' :: 'b' :: digits => (readDigits? 2 digits).map Int.ofNat
  | digits => (readNatural? digits).map Int.ofNat

/-- A word that is not a string: a truth value, or a number of 64 bits. -/
def readWord? (word : List Char) : Option Scalar :=
  if word = ['t', 'r', 'u', 'e'] then some (.boolean true)
  else if word = ['f', 'a', 'l', 's', 'e'] then some (.boolean false)
  else do
    let number ← readInteger? word
    if -9223372036854775808 ≤ number && number ≤ 9223372036854775807 then
      some (.integer number)
    else none

/-- A value, and what stands behind it. -/
def readValue? (text : List Char) : Option (Scalar × List Char) :=
  match text with
  | '"' :: rest => (readString? rest).map fun pair => (.text (String.ofList pair.1), pair.2)
  | _ =>
      let ends := fun c => isBlank c || c = '#'
      (readWord? (text.takeWhile (fun c => !ends c))).map fun scalar =>
        (scalar, text.dropWhile (fun c => !ends c))

end SettingsLine

/-- A settings file as far as it was read, and the table that is open. -/
structure FileState where
  entries : List (String × FileEntry) := []
  path : List String := []

namespace FileState

def step? (state : FileState) (line : List Char) : Option FileState :=
  let text := SettingsLine.skipBlanks line
  if SettingsLine.isDone text then some state
  else
    match text with
    | '[' :: rest => do
        let (path, rest) ← SettingsLine.readKey? rest
        match rest with
        | ']' :: rest =>
            if SettingsLine.isDone rest then
              return ⟨← FileEntry.openTable? path state.entries, path⟩
            else none
        | _ => none
    | _ => do
        let (keys, rest) ← SettingsLine.readKey? text
        match rest with
        | '=' :: rest =>
            let (value, rest) ← SettingsLine.readValue? (SettingsLine.skipBlanks rest)
            if SettingsLine.isDone rest then
              return { state with
                entries := ← FileEntry.assignIn? value keys state.path state.entries }
            else none
        | _ => none

end FileState

/-- The lines of a text, without the carriage returns in front of their ends.  What
stands behind the last line end is a line as it is. -/
def settingsLines (text : String) : List (List Char) :=
  let lines := (text.splitOn "\n").map String.toList
  let ended := lines.dropLast.map fun line =>
    if line.getLast? = some '\r' then line.dropLast else line
  ended ++ lines.getLast?.toList

/-- A text without the mark of the byte order that may stand in front of it. -/
def dropByteOrderMark (text : List Char) : List Char :=
  if text.head? = some '\ufeff' then text.drop 1 else text

/-- The settings in the text of a file, which they name as their origin. -/
def SettingTree.ofText? (origin text : String) : Option SettingTree := do
  let content := String.ofList (dropByteOrderMark text.toList)
  let state ← (settingsLines content).foldlM FileState.step? {}
  return .table (FileEntry.entriesToTree origin state.entries) (some origin)

end BuildLang
