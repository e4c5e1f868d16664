import BuildLang.Proofs.Text.ByteOrder
import BuildLang.Proofs.Token.Regions

/-!
# The order of lines and columns

The place of an offset says how many newlines stand in front of it and how many bytes
behind the last of them.  Both are known from the bytes alone, wherever the offset falls,
so places are in the order of their offsets, and the offset is not even needed to tell.
-/

set_option autoImplicit false

namespace BuildLang

/-- The byte that ends a line. -/
def newline : UInt8 := 10

/-- The offset just behind the last newline in front of `stop`, zero if there is none. -/
structure BeginsLine (bytes : List UInt8) (stop start : Nat) : Prop where
  before : start ≤ stop
  begins : start = 0 ∨ ∃ ending, bytes[ending]? = some newline ∧ start = ending + 1
  unbroken : ∀ offset, start ≤ offset → offset < stop → bytes[offset]? ≠ some newline

/-- The offset at which each line begins. -/
def LineIndex.lineStarts (index : LineIndex) : List Nat :=
  0 :: index.starts

/-- The line and the column of an offset, which stands for the end if it is behind that: the
line is one that the index lists, and the offset is not in front of its start. -/
structure Position.Exact (source : String) (offset : Nat) (place : Position) : Prop where
  inside : place.offset = min offset source.utf8ByteSize
  line : place.line = 1 + ((utf8Bytes source).take place.offset).count newline
  column : ∃ start, (LineIndex.ofSource source).lineStarts[place.line - 1]? = some start ∧
    BeginsLine (utf8Bytes source) place.offset start ∧ place.column = place.offset - start + 1

/-! ## Line starts among the bytes -/

/-- The offset behind each newline of some bytes, the first of which is at `offset`. -/
def byteStartsFrom : Nat → List UInt8 → List Nat
  | _, [] => []
  | offset, byte :: rest =>
      if byte = newline then (offset + 1) :: byteStartsFrom (offset + 1) rest
      else byteStartsFrom (offset + 1) rest

theorem newline_encoded : String.utf8EncodeChar '\n' = [newline] := by
  decide

/-- No other character has the byte of a newline in its encoding. -/
theorem newline_not_mem_encode (c : Char) (other : c ≠ '\n') :
    newline ∉ String.utf8EncodeChar c := by
  have limit := char_limit c
  have differs : c.val.toNat ≠ 10 := by
    intro same
    apply other
    apply Char.ext
    apply UInt32.toNat_inj.mp
    exact same
  have byte (number : Nat) (small : number < 256) :
      newline = UInt8.ofNat number ↔ 10 = number :=
    byte_eq_byte (by decide) small
  unfold String.utf8EncodeChar
  generalize c.val.toNat = v at *
  dsimp only
  split_ifs
  all_goals
    simp (disch := omega) only [List.mem_cons, List.not_mem_nil, or_false, byte]
    omega

theorem byteStartsFrom_append (offset : Nat) (front back : List UInt8)
    (unbroken : newline ∉ front) :
    byteStartsFrom offset (front ++ back) = byteStartsFrom (offset + front.length) back := by
  induction front generalizing offset with
  | nil => rfl
  | cons byte rest ih =>
    rw [List.mem_cons, not_or] at unbroken
    have later := ih (offset + 1) unbroken.2
    rw [List.cons_append, byteStartsFrom, if_neg (Ne.symm unbroken.1), later, List.length_cons]
    congr 1
    omega

/-- Lines begin where the bytes say so. -/
theorem startsFrom_bytes (offset : Nat) (text : List Char) :
    LineIndex.startsFrom offset text =
      byteStartsFrom offset (text.flatMap String.utf8EncodeChar) := by
  induction text generalizing offset with
  | nil => rfl
  | cons c rest ih =>
    rw [List.flatMap_cons, LineIndex.startsFrom]
    by_cases ends : c = '\n'
    · subst ends
      have size : Char.utf8Size '\n' = 1 := by decide
      rw [if_pos rfl, newline_encoded, List.singleton_append, byteStartsFrom, if_pos rfl, size,
        ih]
    · rw [if_neg ends, byteStartsFrom_append _ _ _ (newline_not_mem_encode c ends),
        String.length_utf8EncodeChar, ih]

theorem starts_ofSource (source : String) :
    (LineIndex.ofSource source).starts = byteStartsFrom 0 (utf8Bytes source) := by
  rw [utf8Bytes_eq]
  exact startsFrom_bytes 0 source.toList

/-! ## The search for a line -/

/-- What the search yields is listed: as far behind the first start as lines were counted. -/
theorem lineFrom_listed (offset line start : Nat) (starts : List Nat) :
    line ≤ (LineIndex.lineFrom offset line start starts).1 ∧
      (start :: starts)[(LineIndex.lineFrom offset line start starts).1 - line]? =
        some (LineIndex.lineFrom offset line start starts).2 := by
  induction starts generalizing line start with
  | nil => simp [LineIndex.lineFrom]
  | cons next rest ih =>
    unfold LineIndex.lineFrom
    by_cases reached : next ≤ offset
    · rw [if_pos reached]
      obtain ⟨counted, listed⟩ := ih (line + 1) next
      have shift : (LineIndex.lineFrom offset (line + 1) next rest).1 - line =
          (LineIndex.lineFrom offset (line + 1) next rest).1 - (line + 1) + 1 := by
        omega
      refine ⟨by omega, ?_⟩
      rw [shift, List.getElem?_cons_succ, listed]
    · simp [reached]

/-- Among the first `stop` bytes the last newline is that at `ending`. -/
structure LastNewline (bytes : List UInt8) (stop ending : Nat) : Prop where
  inside : ending < stop
  ends : bytes[ending]? = some newline
  last : ∀ offset, ending < offset → offset < stop → bytes[offset]? ≠ some newline

theorem getElem?_of_not_mem_take {bytes : List UInt8} {stop : Nat}
    (absent : newline ∉ bytes.take stop) (offset : Nat) (inside : offset < stop) :
    bytes[offset]? ≠ some newline := by
  intro isNewline
  apply absent
  rw [List.mem_take_iff_getElem]
  obtain ⟨bounded, isNewline⟩ := List.getElem?_eq_some_iff.mp isNewline
  exact ⟨offset, by omega, isNewline⟩

theorem LastNewline.cons {bytes : List UInt8} {stop ending : Nat}
    (found : LastNewline bytes stop ending) (byte : UInt8) :
    LastNewline (byte :: bytes) (stop + 1) (ending + 1) := by
  have inside := found.inside
  refine ⟨by omega, found.ends, ?_⟩
  intro offset later close
  cases offset with
  | zero => omega
  | succ offset => exact found.last offset (by omega) (by omega)

theorem LastNewline.first {bytes : List UInt8} {stop : Nat} (absent : newline ∉ bytes.take stop) :
    LastNewline (newline :: bytes) (stop + 1) 0 := by
  refine ⟨Nat.succ_pos stop, rfl, ?_⟩
  intro offset later close
  cases offset with
  | zero => omega
  | succ offset => exact getElem?_of_not_mem_take absent offset (by omega)

/-- The search among the starts behind `base` passes one line for each newline in front of the
offset, and stops at the start behind the last of them, or at the one it began with. -/
theorem lineFrom_bytes (offset line start base : Nat) (bytes : List UInt8) :
    (LineIndex.lineFrom offset line start (byteStartsFrom base bytes)).1 =
        line + (bytes.take (offset - base)).count newline ∧
      ((LineIndex.lineFrom offset line start (byteStartsFrom base bytes)).2 = start ∧
          newline ∉ bytes.take (offset - base) ∨
        ∃ ending, LastNewline bytes (offset - base) ending ∧
          (LineIndex.lineFrom offset line start (byteStartsFrom base bytes)).2 =
            base + ending + 1) := by
  induction bytes generalizing line start base with
  | nil => simp [byteStartsFrom, LineIndex.lineFrom]
  | cons byte rest ih =>
    unfold byteStartsFrom
    by_cases reached : base + 1 ≤ offset
    · have step : offset - base = offset - (base + 1) + 1 := by omega
      rw [step, List.take_succ_cons, List.count_cons, List.mem_cons]
      by_cases ends : byte = newline
      · subst ends
        rw [if_pos rfl, LineIndex.lineFrom, if_pos reached]
        obtain ⟨count, place⟩ := ih (line + 1) (base + 1) (base + 1)
        refine ⟨by simp [count]; omega, .inr ?_⟩
        rcases place with ⟨kept, absent⟩ | ⟨ending, last, same⟩
        · exact ⟨0, .first absent, by omega⟩
        · exact ⟨ending + 1, last.cons newline, by omega⟩
      · rw [if_neg ends]
        obtain ⟨count, place⟩ := ih line start (base + 1)
        refine ⟨by simp [count, ends], ?_⟩
        rcases place with ⟨kept, absent⟩ | ⟨ending, last, same⟩
        · exact .inl ⟨kept, not_or.mpr ⟨Ne.symm ends, absent⟩⟩
        · exact .inr ⟨ending + 1, last.cons byte, by omega⟩
    · -- The offset is no further than the first byte, and so is in front of every start.
      have none : offset - base = 0 := by omega
      have noneBehind : offset - (base + 1) = 0 := by omega
      rw [none, List.take_zero]
      by_cases ends : byte = newline
      · rw [if_pos ends, LineIndex.lineFrom, if_neg reached]
        simp
      · rw [if_neg ends]
        obtain ⟨count, place⟩ := ih line start (base + 1)
        rw [noneBehind, List.take_zero] at count place
        refine ⟨count, ?_⟩
        rcases place with kept | ⟨ending, last, _⟩
        · exact .inl kept
        · exact absurd last.inside (Nat.not_lt_zero ending)

theorem beginsLine_zero {bytes : List UInt8} {stop : Nat} (absent : newline ∉ bytes.take stop) :
    BeginsLine bytes stop 0 :=
  ⟨Nat.zero_le stop, .inl rfl, fun offset _ => getElem?_of_not_mem_take absent offset⟩

theorem LastNewline.beginsLine {bytes : List UInt8} {stop ending : Nat}
    (found : LastNewline bytes stop ending) : BeginsLine bytes stop (ending + 1) :=
  ⟨found.inside, .inr ⟨ending, found.ends, rfl⟩, found.last⟩

/-- The place of an offset is what it should be. -/
theorem position_at (source : String) (offset : Nat) :
    ((LineIndex.ofSource source).position offset).Exact source offset := by
  have size := ofSource_size source
  have starts := starts_ofSource source
  obtain ⟨count, place⟩ :=
    lineFrom_bytes (min offset source.utf8ByteSize) 1 0 0 (utf8Bytes source)
  obtain ⟨_, listed⟩ := lineFrom_listed (min offset source.utf8ByteSize) 1 0
    (byteStartsFrom 0 (utf8Bytes source))
  rw [Nat.sub_zero] at count place
  constructor
  · rw [LineIndex.position, size]
  · simp only [LineIndex.position, size, starts]
    exact count
  · simp only [LineIndex.position, LineIndex.lineStarts, size, starts]
    refine ⟨_, listed, ?_, rfl⟩
    rcases place with ⟨kept, absent⟩ | ⟨ending, last, found⟩
    · rw [kept]
      exact beginsLine_zero absent
    · rw [found, Nat.zero_add]
      exact last.beginsLine

/-! ## Order -/

theorem BeginsLine.unique {bytes : List UInt8} {stop start other : Nat}
    (begins : BeginsLine bytes stop start) (also : BeginsLine bytes stop other) :
    start = other := by
  have notBelow {low high : Nat} (first : BeginsLine bytes stop low)
      (second : BeginsLine bytes stop high) : ¬ low < high := by
    intro below
    have bound := second.before
    rcases second.begins with zero | ⟨ending, isNewline, behind⟩
    · omega
    · exact first.unbroken ending (by omega) (by omega) isNewline
  have left := notBelow begins also
  have right := notBelow also begins
  omega

/-- Where no newline comes between, the line begins where it did. -/
theorem BeginsLine.shorten {bytes : List UInt8} {stop further start : Nat}
    (begins : BeginsLine bytes further start) (less : stop ≤ further)
    (unbroken : ∀ offset, stop ≤ offset → offset < further → bytes[offset]? ≠ some newline) :
    BeginsLine bytes stop start := by
  refine ⟨?_, begins.begins, ?_⟩
  · rcases begins.begins with zero | ⟨ending, isNewline, behind⟩
    · omega
    · by_contra notBefore
      have bound := begins.before
      exact unbroken ending (by omega) (by omega) isNewline
  · intro offset low high
    exact begins.unbroken offset low (by omega)

/-- As many newlines in front of two offsets leave none between them. -/
theorem unbroken_of_count (bytes : List UInt8) (stop further : Nat) (less : stop ≤ further)
    (same : (bytes.take stop).count newline = (bytes.take further).count newline)
    (offset : Nat) (behind : stop ≤ offset) (inside : offset < further) :
    bytes[offset]? ≠ some newline := by
  have split : bytes.take further = bytes.take stop ++ (bytes.drop stop).take (further - stop) := by
    rw [← List.take_add]
    congr 1
    omega
  rw [split, List.count_append] at same
  have absent : newline ∉ (bytes.drop stop).take (further - stop) := by
    rw [← List.count_eq_zero]
    omega
  have none := getElem?_of_not_mem_take absent (offset - stop) (by omega)
  rwa [List.getElem?_drop, Nat.add_sub_cancel' behind] at none

/-- Further on in a source is a later line, or a later column of the same line. -/
theorem Position.Exact.later {source : String} {offset other : Nat} {first second : Position}
    (exact : first.Exact source offset) (also : second.Exact source other)
    (further : first.offset < second.offset) :
    first.line < second.line ∨ first.line = second.line ∧ first.column < second.column := by
  obtain ⟨start, _, begins, column⟩ := exact.column
  obtain ⟨otherStart, _, otherBegins, otherColumn⟩ := also.column
  have line := exact.line
  have otherLine := also.line
  have less : ((utf8Bytes source).take first.offset).count newline ≤
      ((utf8Bytes source).take second.offset).count newline :=
    (List.take_sublist_take_left (Nat.le_of_lt further)).count_le newline
  by_cases same : ((utf8Bytes source).take first.offset).count newline =
      ((utf8Bytes source).take second.offset).count newline
  · have shorter := otherBegins.shorten (Nat.le_of_lt further)
      (unbroken_of_count _ _ _ (Nat.le_of_lt further) same)
    have starts := begins.unique shorter
    have bound := begins.before
    refine .inr ⟨by omega, ?_⟩
    omega
  · exact .inl (by omega)

theorem Position.Exact.compare_eq {source : String} {offset other : Nat} {first second : Position}
    (exact : first.Exact source offset) (also : second.Exact source other) :
    (compare first.line second.line).then (compare first.column second.column) =
      compare first.offset second.offset := by
  rcases Nat.lt_trichotomy first.offset second.offset with less | same | greater
  · rw [Nat.compare_eq_lt.mpr less]
    rcases exact.later also less with line | ⟨line, column⟩
    · rw [Nat.compare_eq_lt.mpr line]
      rfl
    · rw [Nat.compare_eq_eq.mpr line, Nat.compare_eq_lt.mpr column]
      rfl
  · obtain ⟨start, _, begins, column⟩ := exact.column
    obtain ⟨otherStart, _, otherBegins, otherColumn⟩ := also.column
    have line : first.line = second.line := by rw [exact.line, also.line, same]
    rw [← same] at otherBegins
    have starts := begins.unique otherBegins
    have columns : first.column = second.column := by omega
    rw [Nat.compare_eq_eq.mpr line, Nat.compare_eq_eq.mpr columns, Nat.compare_eq_eq.mpr same]
    rfl
  · rw [Nat.compare_eq_gt.mpr greater]
    rcases also.later exact greater with line | ⟨line, column⟩
    · rw [Nat.compare_eq_gt.mpr line]
      rfl
    · rw [Nat.compare_eq_eq.mpr line.symm, Nat.compare_eq_gt.mpr column]
      rfl

/-- Places are exact and in the order of their offsets.  Every offset has a place: that of the
end of the source if it is behind it, else on the line that as many newlines stand in front of,
and as many bytes behind the start of that line as its column tells.  Two places compare
as the offsets they stand for, by lines and columns alone as well as with the offsets. -/
theorem position_exact (source : String) (offset other : Nat) :
    ((LineIndex.ofSource source).position offset).Exact source offset ∧
    (((LineIndex.ofSource source).position offset).order
        ((LineIndex.ofSource source).position other) =
      compare (min offset source.utf8ByteSize) (min other source.utf8ByteSize)) ∧
    ((compare ((LineIndex.ofSource source).position offset).line
        ((LineIndex.ofSource source).position other).line).then
        (compare ((LineIndex.ofSource source).position offset).column
          ((LineIndex.ofSource source).position other).column) =
      compare (min offset source.utf8ByteSize) (min other source.utf8ByteSize)) := by
  have exact := position_at source offset
  have also := position_at source other
  have compared := exact.compare_eq also
  rw [exact.inside, also.inside] at compared
  refine ⟨exact, ?_, compared⟩
  rw [Position.order, ← Ordering.then_assoc, compared, exact.inside, also.inside]
  cases compare (min offset source.utf8ByteSize) (min other source.utf8ByteSize) <;> rfl

end BuildLang
