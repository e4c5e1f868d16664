import BuildLang.Proofs.Layout.Lines
import BuildLang.Proofs.Tree.Bare

/-!
# What the emitter writes

Every writer writes the lines of its part of the tree, from whatever depth it starts at and
behind whatever is already in the line.  So the text of a file is its layout, rendered: the
indentation of a line is one unit for each level, and an empty line has none.
-/

set_option autoImplicit false

namespace BuildLang

variable {π : Type}

namespace Emitter

/-! ## Lines -/

def deeper (out : Emitter) (levels : Nat) : Emitter :=
  { out with depth := out.depth + levels }

/-- Goes on with the current line; if it is still empty, it stands deeper by `depth` levels. -/
def printAt (out : Emitter) (depth : Nat) (text : String) : Emitter :=
  { (out.deeper depth).print text with depth := out.depth }

/-- The lines, the first one behind what is in the current line and the last one not ended. -/
def put (out : Emitter) : List Line → Emitter
  | [] => out
  | [line] => out.printAt line.depth line.text
  | line :: next :: others => put (out.printAt line.depth line.text).newline (next :: others)

/-- The lines, every one of them ended. -/
def putLines (out : Emitter) : List Line → Emitter
  | [] => out
  | line :: others => putLines (out.printAt line.depth line.text).newline others

theorem printAt_zero (out : Emitter) (text : String) : out.printAt 0 text = out.print text := by
  have level : out.deeper 0 = out := rfl
  rw [printAt, level]
  unfold print
  split
  · rfl
  · split <;> rfl

theorem print_print (out : Emitter) (first second : String) :
    (out.print first).print second = out.print (first ++ second) := by
  by_cases nothing : first = ""
  · simp [nothing, print]
  by_cases less : second = ""
  · simp [less, print]
  by_cases start : out.atLineStart = true
  · simp [print, nothing, less, start, String.append_assoc]
  · simp [print, nothing, less, start, String.append_assoc]

theorem newline_put (out : Emitter) (lines : List Line) (some : lines ≠ []) :
    (out.put lines).newline = out.putLines lines := by
  induction lines generalizing out with
  | nil => exact absurd rfl some
  | cons line others ih =>
    cases others with
    | nil => rfl
    | cons next later => exact ih _ (List.cons_ne_nil _ _)

theorem putLines_append (out : Emitter) (lines others : List Line) :
    out.putLines (lines ++ others) = (out.putLines lines).putLines others := by
  induction lines generalizing out with
  | nil => rfl
  | cons line later ih => exact ih _

theorem put_append (out : Emitter) (lines : List Line) (next : Line) (others : List Line) :
    out.put (lines ++ next :: others) = (out.putLines lines).put (next :: others) := by
  induction lines generalizing out with
  | nil => rfl
  | cons line later ih =>
    rw [putLines, ← ih]
    cases later <;> rfl

/-- One level deeper, and back again. -/
theorem putLines_nested (out : Emitter) (lines : List Line) :
    (out.indent.putLines lines).dedent = out.putLines (Line.nested lines) := by
  have deeper (out : Emitter) (depth : Nat) (text : String) :
      out.indent.printAt depth text = (out.printAt (depth + 1) text).indent := by
    have level : out.depth + 1 + depth = out.depth + (depth + 1) := by omega
    simp [printAt, deeper, indent, level]
  have inside : out.indent.putLines lines = (out.putLines (Line.nested lines)).indent := by
    induction lines generalizing out with
    | nil => rfl
    | cons line others ih =>
      rw [putLines, deeper]
      exact ih (out.printAt (line.depth + 1) line.text).newline
  rw [inside]
  rfl

theorem put_print (out : Emitter) (first second : String) (others : List Line) :
    (out.print first).put (⟨0, second⟩ :: others) = out.put (⟨0, first ++ second⟩ :: others) := by
  have joined : (out.print first).printAt 0 second = out.printAt 0 (first ++ second) := by
    rw [printAt_zero, printAt_zero, print_print]
  cases others with
  | nil => exact joined
  | cons next later => exact congrArg (fun out : Emitter => out.newline.put (next :: later)) joined

/-! ## Parts of a text -/

/-- Neither the first line nor the last one stands deeper than what is around them. -/
structure Level (lines : List Line) : Prop where
  first : ∃ text others, lines = ⟨0, text⟩ :: others
  last : ∃ others text, lines = others ++ [⟨0, text⟩]

theorem beside_last (lines : List Line) (last next : Line) (others : List Line) :
    Line.beside (lines ++ [last]) (next :: others) =
      lines ++ ⟨last.depth, last.text ++ next.text⟩ :: others := by
  induction lines with
  | nil => rfl
  | cons line later ih =>
    cases later with
    | nil => rfl
    | cons _ _ => exact congrArg (line :: ·) ih

namespace Level

variable {lines others : List Line}

theorem ne_nil (level : Level lines) : lines ≠ [] := by
  obtain ⟨_, _, rfl⟩ := level.first
  exact List.cons_ne_nil _ _

theorem single (text : String) : Level (Line.single text) :=
  ⟨⟨text, [], rfl⟩, ⟨[], text, rfl⟩⟩

theorem beside (level : Level lines) (behind : Level others) :
    Level (Line.beside lines others) := by
  obtain ⟨front, text, whole⟩ := level.last
  obtain ⟨next, rest, split⟩ := behind.first
  rw [whole, split, beside_last]
  refine ⟨?_, ?_⟩
  · obtain ⟨opening, _, same⟩ := level.first
    rw [whole] at same
    cases front with
    | nil => exact ⟨_, _, rfl⟩
    | cons line later =>
      obtain ⟨rfl, _⟩ := List.cons.inj same
      exact ⟨opening, _, rfl⟩
  · obtain ⟨before, closing, same⟩ := behind.last
    rw [split] at same
    cases before with
    | nil =>
      obtain ⟨_, rfl⟩ := List.cons.inj same
      exact ⟨front, _, rfl⟩
    | cons line later =>
      obtain ⟨_, rfl⟩ := List.cons.inj same
      exact ⟨front ++ ⟨0, text ++ next⟩ :: later, closing, by simp⟩

theorem block (opening closing : String) (inside : List Line) :
    Level (Line.block opening inside closing) := by
  cases inside with
  | nil => exact single _
  | cons line later => exact ⟨⟨opening, _, rfl⟩, ⟨_, closing, rfl⟩⟩

end Level

/-- The writer writes the lines into the text, the last one of them not ended. -/
structure Writes (write : Emitter → Emitter) (lines : List Line) : Prop where
  level : Level lines
  put : ∀ out, write out = out.put lines

/-- The writer writes the lines into the text, every one of them ended. -/
def Fills (write : Emitter → Emitter) (lines : List Line) : Prop :=
  ∀ out, write out = out.putLines lines

section

variable {write more : Emitter → Emitter} {lines others : List Line}

theorem writes_print (text : String) : Writes (print · text) (Line.single text) where
  level := .single text
  put out := (out.printAt_zero text).symm

/-- What is written next goes on with the last line. -/
theorem Writes.beside (writes : Writes write lines) (behind : Writes more others) :
    Writes (fun out => more (write out)) (Line.beside lines others) where
  level := writes.level.beside behind.level
  put out := by
    obtain ⟨front, text, whole⟩ := writes.level.last
    obtain ⟨next, rest, split⟩ := behind.level.first
    rw [behind.put, writes.put, whole, split, beside_last, put_append, put_append, ← put_print,
      ← printAt_zero]
    rfl

theorem Writes.newline (writes : Writes write lines) :
    Fills (fun out => (write out).newline) lines := by
  intro out
  change (write out).newline = _
  rw [writes.put, newline_put out lines writes.level.ne_nil]

theorem fills_nothing : Fills (fun out => out) [] :=
  fun _ => rfl

theorem Fills.append (fills : Fills write lines) (behind : Fills more others) :
    Fills (fun out => more (write out)) (lines ++ others) := by
  intro out
  change more (write out) = _
  rw [behind, fills, putLines_append]

/-- Lines between an opening and a closing one. -/
theorem Fills.block (fills : Fills write lines) (some : lines ≠ []) (opening closing : String) :
    Writes (fun out => (write (out.println opening).indent).dedent.print closing)
      (Line.block opening lines closing) where
  level := .block opening closing lines
  put out := by
    obtain ⟨line, later, rfl⟩ := List.exists_cons_of_ne_nil some
    have opened : out.println opening = out.putLines (Line.single opening) :=
      congrArg newline (out.printAt_zero opening).symm
    rw [fills, putLines_nested, opened, ← putLines_append]
    have closed := put_append out (Line.single opening ++ Line.nested (line :: later))
      ⟨0, closing⟩ []
    exact (printAt_zero _ closing).symm.trans closed.symm

theorem fills_flatMap {σ : Type} (items : List σ) (write : Emitter → σ → Emitter)
    (lines : σ → List Line) (each : ∀ item ∈ items, Fills (write · item) (lines item)) :
    Fills (items.foldl write) (items.flatMap lines) := by
  induction items with
  | nil => exact fills_nothing
  | cons item later ih =>
    have rest := ih fun other member => each other (List.mem_cons_of_mem item member)
    exact (each item List.mem_cons_self).append rest

end

/-! ## Values -/

theorem writes_prints (first second : String) :
    Writes (fun out => (out.print first).print second) (Line.single (first ++ second)) := by
  simpa only [print_print] using writes_print (first ++ second)

theorem writes_message (message : Option (Phrase π)) :
    Writes (·.writeMessage message) (Line.single (Select.messageText message ++ ")")) := by
  cases message with
  | none => exact writes_print ")"
  | some phrase =>
    have pieces := (writes_prints ", no_match_error = " phrase.raw).beside (writes_print ")")
    exact pieces

theorem Fills.braces {entries : Emitter → Emitter} {lines : List Line}
    (fills : Fills entries lines) (none : Bool) (empty : none = lines.isEmpty) :
    Writes (·.writeBraces none entries) (Line.block "\x7b" lines "\x7d") := by
  cases lines with
  | nil =>
    rw [empty]
    exact writes_print "\x7b\x7d"
  | cons line later =>
    rw [empty]
    exact fills.block (List.cons_ne_nil _ _) "\x7b" "\x7d"

theorem writes_entry (entry : Entry π (Value π))
    (value : Writes (·.writeValue entry.value) entry.value.layout) :
    Writes (fun out => (((out.print entry.key.raw).print ": ").writeValue entry.value).print ",")
      (Line.besideAll [Line.single (entry.key.raw ++ ": "), entry.value.layout,
        Line.single ","]) :=
  (writes_prints entry.key.raw ": ").beside (value.beside (writes_print ","))

theorem fills_entries (entries : List (Entry π (Value π)))
    (each : ∀ entry ∈ entries,
      Writes (·.writeValue (Entry.value entry)) (Value.layout entry.value)) :
    Fills (·.writeEntries entries) (Value.layoutEntries entries) := by
  induction entries with
  | nil => exact fills_nothing
  | cons entry later ih =>
    have rest := ih fun other member => each other (List.mem_cons_of_mem entry member)
    exact (writes_entry entry (each entry List.mem_cons_self)).newline.append rest

/-- The entries of a dict in their braces. -/
theorem writes_entries (entries : List (Entry π (Value π)))
    (each : ∀ entry ∈ entries,
      Writes (·.writeValue (Entry.value entry)) (Value.layout entry.value)) :
    Writes (·.writeBraces entries.isEmpty (·.writeEntries entries))
      (Line.block "\x7b" (Value.layoutEntries entries) "\x7d") := by
  refine (fills_entries entries each).braces _ ?_
  cases entries with
  | nil => rfl
  | cons entry later =>
    have some := (writes_entry entry (each entry List.mem_cons_self)).level.ne_nil
    simp [Value.layoutEntries, some]

theorem writes_value (value : Value π) : Writes (·.writeValue value) value.layout := by
  induction value using Value.nestedInduction with
  | string literal => exact writes_print literal.raw
  | number literal => exact writes_print literal.raw
  | boolean literal => exact writes_print literal.raw
  | identifier node => exact writes_print node.name
  | array node => exact writes_print node.text
  | glob node => exact writes_print node.text
  | dict entries position each => exact writes_entries entries each
  | selectDict entries inner message position each =>
    exact (writes_print "select(").beside
      ((writes_entries entries each).beside (writes_message message))
  | selectName node message position =>
    exact (writes_print "select(").beside
      ((writes_print node.name).beside (writes_message message))

/-! ## Statements -/

theorem Writes.binding {closing : Emitter → Emitter} {ending : String}
    (closes : Writes closing (Line.single ending)) (name : String) (value : Value π) :
    Writes (fun out => closing (out.writeBinding name value)) (layoutBinding name value ending) :=
  (writes_prints name " = ").beside ((writes_value value).beside closes)

theorem writes_nothing : Writes (fun out => out) (Line.single "") where
  level := .single ""
  put out := (out.printAt_zero "").symm

theorem fills_declaration (declaration : Declaration π) :
    Fills (·.writeDeclaration declaration) declaration.layout :=
  (writes_nothing.binding declaration.name declaration.value).newline

theorem fills_attributes (attributes : List (Attribute π)) :
    Fills (·.writeAttributes attributes) (Rule.layoutAttributes attributes) := by
  induction attributes with
  | nil => exact fills_nothing
  | cons argument later ih =>
    cases later with
    | nil => exact (writes_nothing.binding argument.name argument.value).newline
    | cons next rest =>
      exact ((writes_print ",").binding argument.name argument.value).newline.append ih

/-- Lines in the parentheses of a call, or nothing between them if there are none. -/
theorem Fills.call {write : Emitter → Emitter} {lines : List Line} (fills : Fills write lines)
    (name : String) (none : Bool) (empty : none = lines.isEmpty) :
    Fills (fun out => if none then out.println (name ++ "()")
      else (write (out.println (name ++ "(")).indent).dedent.println ")")
      (Line.block (name ++ "(") lines ")") := by
  cases lines with
  | nil =>
    rw [empty, Line.block, String.append_assoc]
    exact (writes_print (name ++ "()")).newline
  | cons line later =>
    rw [empty]
    exact (fills.block (List.cons_ne_nil _ _) (name ++ "(") ")").newline

theorem layoutBinding_ne_nil (name : String) (value : Value π) (ending : String) :
    layoutBinding name value ending ≠ [] :=
  ((writes_print ending).binding name value).level.ne_nil

theorem fills_rule (rule : Rule π) : Fills (·.writeRule rule) rule.layout := by
  refine (fills_attributes rule.attributes).call rule.kind rule.attributes.isEmpty ?_
  cases rule.attributes with
  | nil => rfl
  | cons argument later =>
    cases later with
    | nil => simp [Rule.layoutAttributes, layoutBinding_ne_nil]
    | cons _ _ => simp [Rule.layoutAttributes, layoutBinding_ne_nil]

theorem fills_call (name : String) (arguments : List (Argument π)) :
    Fills (·.writeCall name arguments) (layoutCall name arguments) := by
  have each := fills_flatMap arguments
    (fun out argument => (out.writeBinding argument.name argument.value).println ",") _
    fun argument _ => ((writes_print ",").binding argument.name argument.value).newline
  refine each.call name arguments.isEmpty ?_
  cases arguments with
  | nil => rfl
  | cons argument later => simp [layoutBinding_ne_nil]

/-- Calls that are laid out the same are written the same. -/
theorem writeCall_congr {ρ : Type} {name : String} {arguments : List (Argument π)}
    {others : List (Argument ρ)} (same : layoutCall name arguments = layoutCall name others)
    (out : Emitter) : out.writeCall name arguments = out.writeCall name others :=
  calc out.writeCall name arguments
    _ = out.putLines (layoutCall name arguments) := fills_call name arguments out
    _ = out.putLines (layoutCall name others) := congrArg out.putLines same
    _ = out.writeCall name others := (fills_call name others out).symm

theorem writes_arrayOrName (value : ArrayOrName π) :
    Writes (·.writeArrayOrName value) (Line.single value.text) := by
  cases value with
  | array node => exact writes_print node.text
  | identifier node => exact writes_print node.name

theorem fills_exportsFiles (exports : ExportsFiles π) :
    Fills (·.writeExportsFiles exports) exports.layout := by
  obtain ⟨files, visibility, position⟩ := exports
  have opened := (writes_print "exports_files(").beside (writes_arrayOrName files)
  cases visibility with
  | none =>
    have line : (ExportsFiles.mk files none position).layout =
        Line.single ("exports_files(" ++ files.text ++ ")") := by
      simp [ExportsFiles.layout]
    rw [line]
    exact (opened.beside (writes_print ")")).newline
  | some value =>
    have line : (ExportsFiles.mk files (some value) position).layout =
        Line.single ("exports_files(" ++ files.text ++ ", visibility = " ++ value.text ++ ")") := by
      simp [ExportsFiles.layout, String.append_assoc]
    have shown := (opened.beside (writes_print ", visibility = ")).beside (writes_arrayOrName value)
    rw [line]
    exact (shown.beside (writes_print ")")).newline

theorem fills_loads (loads : List (Load π)) :
    Fills (·.writeLoads loads) (loads.flatMap fun load => Line.single load.text) :=
  fills_flatMap loads _ _ fun load _ => (writes_print load.text).newline

/-! ## Texts -/

theorem pushUnits_eq (unit : String) (depth : Nat) (buffer : String) :
    pushUnits unit depth buffer = buffer ++ String.join (List.replicate depth unit) := by
  induction depth generalizing buffer with
  | zero => simp [pushUnits]
  | succ depth ih => rw [pushUnits, ih, List.replicate_succ, String.join_cons, String.append_assoc]

/-- From the start of a line that is not indented, lines are written as they are rendered. -/
theorem finish_putLines (out : Emitter) (lines : List Line) (start : out.atLineStart = true)
    (flat : out.depth = 0) :
    (out.putLines lines).finish = out.buffer ++ Line.renderAll out.unit lines := by
  induction lines generalizing out with
  | nil => simp [putLines, finish, Line.renderAll]
  | cons line others ih =>
    have written : (out.printAt line.depth line.text).newline =
        { out with buffer := out.buffer ++ (line.render out.unit ++ "\n") } := by
      by_cases empty : line.text = ""
      · simp [printAt, deeper, print, newline, Line.render, empty, start]
      · simp [printAt, deeper, print, newline, Line.render, empty, start, flat, pushUnits_eq,
          String.append_assoc]
    have rest := ih
      { out with buffer := out.buffer ++ (line.render out.unit ++ "\n") } start flat
    rw [putLines, written, rest, Line.renderAll, Line.renderAll, List.map_cons, String.join_cons,
      String.append_assoc]

theorem Fills.finish {write : Emitter → Emitter} {lines : List Line} (fills : Fills write lines)
    (indent : String) : (write (.new indent)).finish = Line.renderAll indent lines := by
  rw [fills, finish_putLines _ _ rfl rfl]
  exact String.empty_append

end Emitter

/-! ## Files -/

theorem Line.renderAll_eq_empty (indent : String) (lines : List Line) :
    (renderAll indent lines).isEmpty = lines.isEmpty := by
  cases lines with
  | nil => rfl
  | cons line others => simp [renderAll]

theorem Line.renderAll_intercalate (indent : String) (parts : List (List Line)) :
    renderAll indent ([⟨0, ""⟩].intercalate parts) =
      "\n".intercalate (parts.map (renderAll indent)) := by
  induction parts with
  | nil => rfl
  | cons part others ih =>
    cases others with
    | nil => simp
    | cons next later =>
      have gap : renderAll indent [⟨0, ""⟩] = "\n" := rfl
      have parted : [(⟨0, ""⟩ : Line)].intercalate (part :: next :: later) =
          part ++ ([⟨0, ""⟩] ++ [⟨0, ""⟩].intercalate (next :: later)) := by
        simp [List.intercalate]
      rw [parted, renderAll_append, renderAll_append, ih, gap]
      simp only [List.map_cons, String.intercalate_cons_cons, String.append_assoc]

/-- Sections are written one by one, those without a text left out. -/
theorem Line.renderAll_sections (indent : String) (parts : List (List Line)) :
    renderAll indent (sections parts) =
      "\n".intercalate ((parts.map (renderAll indent)).filter fun text => !text.isEmpty) := by
  have kept : (fun text : String => !text.isEmpty) ∘ renderAll indent =
      fun part => !part.isEmpty := by
    funext part
    simp [renderAll_eq_empty]
  rw [sections, renderAll_intercalate, List.filter_map, kept]

namespace BuildFile

variable (file : BuildFile π)

theorem layoutLoads_flat : ∀ line ∈ file.layoutLoads, line.depth = 0 := by
  intro line member
  obtain ⟨load, _, inside⟩ := List.mem_flatMap.mp member
  rw [Line.single, List.mem_singleton] at inside
  rw [inside]

theorem renderAll_flat (indent : String) (lines : List Line)
    (flat : ∀ line ∈ lines, line.depth = 0) :
    Line.renderAll indent lines = Line.renderAll "" lines := by
  have each : ∀ line ∈ lines, line.render indent ++ "\n" = line.render "" ++ "\n" := by
    intro line member
    simp [Line.render, flat line member]
  rw [Line.renderAll, Line.renderAll, List.map_congr_left each]

/-- The text of the loads is their layout, rendered. -/
theorem printLoads_eq : file.printLoads = Line.renderAll "" file.layoutLoads :=
  (Emitter.fills_loads file.sortedLoads).finish ""

theorem blocks_eq (indent : String) :
    file.blocks indent = file.layoutSections.map (Line.renderAll indent) := by
  have declarations := (Emitter.fills_flatMap file.declarations Emitter.writeDeclaration _
    fun declaration _ => Emitter.fills_declaration declaration).finish indent
  have exports (exports : ExportsFiles π) := (Emitter.fills_exportsFiles exports).finish indent
  have rules (rule : Rule π) := (Emitter.fills_rule rule).finish indent
  have call (name : String) (arguments : List (Argument π)) :=
    (Emitter.fills_call name arguments).finish indent
  have loads : file.printLoads = Line.renderAll indent file.layoutLoads := by
    rw [printLoads_eq, renderAll_flat indent _ file.layoutLoads_flat]
  simp [blocks, layoutSections, declarations, exports, rules, call, loads, Function.comp_def,
    Option.toList_map]

/-- The text of a file is its layout, rendered under any indentation. -/
theorem print_eq (indent : String) :
    file.print ⟨.all, indent⟩ = Line.renderAll indent file.layout := by
  rw [print, blocks_eq, layout, Line.renderAll_sections]

end BuildFile

end BuildLang
