import BuildLang.Proofs.Grammar.Lays
import BuildLang.Proofs.Reports
import BuildLang.Proofs.Survival

/-!
# Places of nodes

The place of a node is that of its first token, a node lies behind the beginning of the
one around it, and siblings come in the order of the source.  The grammar counts tokens,
so all of this is so among indices first; places are in the order of indices.
-/

set_option autoImplicit false

namespace BuildLang

open BuildLang.Parser

/-- Each node stands behind the one before it in the source. -/
def Ascending (group : List (Outline Position)) : Prop :=
  group.Pairwise fun first second =>
    ∀ place ∈ first.position, ∀ later ∈ second.position, place.offset < later.offset

/-- The node and all nodes in it have their place: where a token of the source begins
that leads the node and is spelled there.  The nodes inside are further on than the
beginning of the node, and those of one group are in order. -/
inductive Outline.Exact (source : String) : Outline Position → Prop where
  | node {lead : Lead} {place : Position} {groups : List (List (Outline Position))}
      {lexeme : Lexeme} (token : lexeme ∈ tokenizeWithSpans source)
      (leads : lead.Matches lexeme.token) (starts : place.offset = lexeme.start)
      (converted : place = (LineIndex.ofSource source).position place.offset)
      (spelled : Occupies source lead.text place.offset lexeme.stop)
      (ordered : ∀ group ∈ groups, Ascending group)
      (behind : ∀ group ∈ groups, ∀ child ∈ group, ∀ later ∈ child.position,
        place.offset < later.offset)
      (inside : ∀ group ∈ groups, ∀ child ∈ group, Exact source child) :
      Exact source (.node lead (some place) groups)

/-! ## Leading tokens -/

theorem quoted_unquoted (raw : String) (legal : (Token.string raw).Legal) :
    quoted (unquoted raw) = raw := by
  obtain ⟨body, _, written⟩ := legal
  apply String.toList_inj.mp
  rw [toList_quoted, unquoted_image raw body written, written, String.toList_ofList]

theorem Lead.text_of_matches (lead : Lead) (lexeme : Token) (leads : lead.Matches lexeme)
    (legal : lexeme.Legal) : lead.text = lexeme.text := by
  cases lead with
  | token expected => exact congrArg Token.text leads.symm
  | symbol value =>
    cases lexeme with
    | string raw =>
      obtain rfl : unquoted raw = value := leads
      exact quoted_unquoted raw legal
    | _ => cases leads

/-! ## From indices to places -/

/-- The nodes have indices from `start` on, before `stop` and in order, and are exact
once the indices are places. -/
structure Standing (source : String) (start stop : Nat) (nodes : List (Outline Nat)) :
    Prop where
  placed : ∀ node ∈ nodes, (node.map (tokenPlace source)).Exact source
  within : ∀ node ∈ nodes, ∃ index, node.position = some index ∧ start ≤ index ∧ index < stop
  ordered : nodes.Pairwise fun first second =>
    ∀ index ∈ first.position, ∀ later ∈ second.position, index < later

theorem Standing.sublist {source : String} {start stop : Nat} {nodes fewer : List (Outline Nat)}
    (standing : Standing source start stop nodes) (drawn : fewer.Sublist nodes) :
    Standing source start stop fewer :=
  ⟨fun node member => standing.placed node (drawn.subset member),
    fun node member => standing.within node (drawn.subset member),
    standing.ordered.sublist drawn⟩

/-- Nodes that stand in order are in order in the source. -/
theorem Standing.ascending {source : String} {start stop : Nat} {nodes : List (Outline Nat)}
    (standing : Standing source start stop nodes) (bounded : stop ≤ (tokenize source).length) :
    Ascending (nodes.map (Outline.map (tokenPlace source))) := by
  rw [Ascending, List.pairwise_map]
  refine standing.ordered.imp_of_mem ?_
  intro first second member later order place found other otherFound
  rw [Outline.position_map] at found otherFound
  obtain ⟨index, known, rfl⟩ := Option.map_eq_some_iff.mp found
  obtain ⟨further, otherKnown, rfl⟩ := Option.map_eq_some_iff.mp otherFound
  obtain ⟨_, same, _, inside⟩ := standing.within second later
  obtain rfl := Option.some.inj (otherKnown.symm.trans same)
  have less : index < further := order index known further otherKnown
  have within : further ≤ (tokenize source).length := by omega
  exact tokenPlace_ascending source (Nat.le_trans (Nat.le_of_lt less) within) within less

theorem standing_node (source : String) (start stop : Nat) (lexeme : Token) (lead : Lead)
    (groups : List (List (Outline Nat))) (inside : List (Outline Nat))
    (found : (tokenize source)[start]? = some lexeme) (legal : lexeme.Legal)
    (leads : lead.Matches lexeme) (standing : Standing source (start + 1) stop inside)
    (bounded : stop ≤ (tokenize source).length)
    (drawn : ∀ group ∈ groups, group.Sublist inside) :
    ((Outline.node lead (some start) groups).map (tokenPlace source)).Exact source := by
  rw [tokenize, List.getElem?_map] at found
  obtain ⟨first, place, rfl⟩ := Option.map_eq_some_iff.mp found
  have offset := tokenPlace_inside source start first place
  have member := List.mem_of_getElem? place
  have converted : tokenPlace source start = (LineIndex.ofSource source).position first.start := by
    simp [tokenPlace, tokenPosition, place]
  rw [Outline.map_node]
  refine .node member leads offset ?_ ?_ ?_ ?_ ?_
  · rw [offset, converted]
  · rw [offset, lead.text_of_matches first.token leads legal]
    exact (lexeme_place source first member).2.2
  · intro group given
    obtain ⟨origin, chosen, rfl⟩ := List.mem_map.mp given
    exact (standing.sublist (drawn origin chosen)).ascending bounded
  · intro group given child among later known
    obtain ⟨origin, chosen, rfl⟩ := List.mem_map.mp given
    obtain ⟨node, original, rfl⟩ := List.mem_map.mp among
    obtain ⟨index, same, less, inside⟩ :=
      (standing.sublist (drawn origin chosen)).within node original
    rw [Outline.position_map, same] at known
    obtain rfl := Option.some.inj known
    have within : index ≤ (tokenize source).length := by omega
    exact tokenPlace_ascending source (by show start ≤ _; omega) within (by omega)
  · intro group given child among
    obtain ⟨origin, chosen, rfl⟩ := List.mem_map.mp given
    obtain ⟨node, original, rfl⟩ := List.mem_map.mp among
    exact (standing.sublist (drawn origin chosen)).placed node original

/-- Nodes that lie along the tokens of a source stand where those do. -/
theorem LieAlong.standing {source : String} {start : Nat} {tokens : List Token}
    {nodes : List (Outline Nat)} (along : LieAlong start tokens nodes)
    (legal : ∀ lexeme ∈ tokenize source, lexeme.Legal) (next : Cursor)
    (spans : Spans (.ofIndex (tokenize source) start) tokens next) :
    Standing source start (start + tokens.length) nodes := by
  induction along generalizing next with
  | done => exact ⟨by simp, by simp, .nil⟩
  | @skip start lexeme rest nodes _ ih =>
    obtain ⟨middle, first, later⟩ := (spans_cons _ _ _ _).mp spans
    rw [first.ofIndex] at later
    have standing := ih next later
    refine ⟨standing.placed, ?_, standing.ordered⟩
    intro node member
    obtain ⟨index, same, less, inside⟩ := standing.within node member
    refine ⟨index, same, by omega, ?_⟩
    rw [List.length_cons]
    omega
  | @node start lexeme inner rest lead groups inside others leads _ drawn _ ihInside ih =>
    obtain ⟨middle, first, behind⟩ := (spans_cons _ _ _ _).mp spans
    rw [first.ofIndex] at behind
    obtain ⟨stop, within, later⟩ := (spans_append _ _ _ _).mp behind
    have inStanding := ihInside stop within
    rw [within.ofIndex] at later
    have standing := ih next later
    have length : start + (lexeme :: (inner ++ rest)).length =
        start + 1 + inner.length + rest.length := by
      simp only [List.length_cons, List.length_append]
      omega
    have found : (tokenize source)[start]? = some lexeme := by
      rw [← List.head?_drop]
      exact congrArg List.head? first.1
    have bounded : start + 1 + inner.length ≤ (tokenize source).length := by
      have whole := (spans_append _ _ (lexeme :: inner) rest).mp spans
      obtain ⟨_, taken, _⟩ := whole
      have stops := taken.stop_le (by simp)
      rw [List.length_cons] at stops
      omega
    have whole := standing_node source start _ lexeme lead groups inside found
      (legal lexeme (List.mem_of_getElem? found)) leads inStanding bounded drawn
    rw [length]
    refine ⟨List.forall_mem_cons.mpr ⟨whole, standing.placed⟩,
      List.forall_mem_cons.mpr ⟨⟨start, rfl, Nat.le_refl _, by omega⟩, ?_⟩,
      List.pairwise_cons.mpr ⟨?_, standing.ordered⟩⟩
    · intro node member
      obtain ⟨index, same, less, inside⟩ := standing.within node member
      exact ⟨index, same, by omega, by omega⟩
    · rintro node member _ ⟨⟩ later known
      obtain ⟨index, same, less, inside⟩ := standing.within node member
      obtain rfl := Option.some.inj (known.symm.trans same)
      omega

/-! ## Whole files -/

section

variable {α : Type} (pick : Statement Nat → Option α) (outline : α → Outline Nat)
  (shown : ∀ statement node, pick statement = some node → statement.outlines = [outline node])

include shown

/-- Nodes of one kind are drawn from those of all statements. -/
theorem drawn_statements (statements : List (Statement Nat)) :
    ((statements.filterMap pick).map outline).Sublist
      (statements.flatMap Statement.outlines) := by
  induction statements with
  | nil => exact .slnil
  | cons statement rest ih =>
    rw [List.filterMap_cons, List.flatMap_cons]
    cases found : pick statement with
    | none => exact ih.trans (List.sublist_append_right _ _)
    | some node =>
      rw [shown statement node found]
      exact ih.cons_cons (outline node)

theorem drawn_last (statements : List (Statement Nat)) :
    ((statements.filterMap pick).getLast?.map outline).toList.Sublist
      (statements.flatMap Statement.outlines) := by
  have all := drawn_statements pick outline shown statements
  cases last : (statements.filterMap pick).getLast? with
  | none => exact List.nil_sublist _
  | some node =>
    have member := List.mem_map_of_mem (f := outline) (List.mem_of_getLast? last)
    exact (List.singleton_sublist.mpr member).trans all

end

theorem drawn_file (statements : List (Statement Nat)) :
    ∀ group ∈ (BuildFile.ofStatements statements).outlines,
      group.Sublist (statements.flatMap Statement.outlines) := by
  intro group member
  simp only [BuildFile.outlines, BuildFile.ofStatements, List.mem_cons, List.not_mem_nil,
    or_false] at member
  rcases member with rfl | rfl | rfl | rfl | rfl | rfl
  · refine drawn_statements _ _ ?_ statements
    rintro (_ | _) node found <;> cases found
    rfl
  · refine drawn_statements _ _ ?_ statements
    rintro (_ | _) node found <;> cases found
    rfl
  · refine drawn_statements _ _ ?_ statements
    rintro (_ | _) node found <;> cases found
    rfl
  · refine drawn_last _ _ ?_ statements
    rintro (_ | _) node found <;> cases found
    rfl
  · refine drawn_last _ _ ?_ statements
    rintro (_ | _) node found <;> cases found
    rfl
  · refine drawn_last _ _ ?_ statements
    rintro (_ | _) node found <;> cases found
    rfl

/-- Whatever is read of a token list was read step by step, up to its end. -/
theorem readSteps_repeats (recovery : Recovery) (tokens : List Token) (steps : List Step)
    (faults : List Fault) (read : readSteps recovery tokens = (some steps, faults)) :
    ∃ told stop, Repeats (documentStep recovery) (.start tokens) told steps stop ∧
      stop.rest = [] := by
  cases whole : (document recovery (.start tokens)).outcome with
  | error fault => simp [readSteps, whole] at read
  | ok success =>
    simp only [readSteps, whole, Prod.mk.injEq, Option.some.injEq] at read
    obtain ⟨pair, inner, _, value⟩ := mapSpan_ok _ _ success whole
    obtain ⟨⟨all, hint, stop⟩, ended, many, finished, _, both⟩ := seq_ok _ _ pair inner
    have same : all = steps := by
      rw [← read.1, ← value, both]
    subst same
    refine ⟨_, stop, ((many_iff (takes_documentStep recovery) _ stop _ all).mp
      ⟨hint, congrArg (Reply.mk _) many⟩).1, ?_⟩
    unfold finish at finished
    split at finished
    · assumption
    · cases finished

/-- The tree of a token list: every node of it lies along the tokens. -/
theorem readTokens_lays (recovery : Recovery) (tokens : List Token) (tree : BuildFile Nat)
    (read : (readTokens recovery tokens).file = some tree) :
    ∃ nodes, LieAlong 0 tokens nodes ∧ ∀ group ∈ tree.outlines, group.Sublist nodes := by
  obtain ⟨steps, faults, given, rfl⟩ : ∃ steps faults,
      readSteps recovery tokens = (some steps, faults) ∧ (assemble steps).file = tree := by
    unfold readTokens at read
    split at read
    · cases read
    · rename_i steps faults given
      dsimp only at read
      split at read
      · cases read
      · exact ⟨steps, faults, given, Option.some.inj read⟩
  obtain ⟨told, stop, repeats, ended⟩ := readSteps_repeats recovery tokens steps faults given
  obtain ⟨taken, spans, along⟩ := repeats_lays recovery _ stop told steps repeats
  have whole : tokens = taken := by
    have rest : tokens = taken ++ stop.rest := spans.1
    rw [rest, ended, List.append_nil]
  rw [← whole] at along
  refine ⟨_, along, ?_⟩
  intro group member
  rw [assemble_file] at member
  have drawn := drawn_file _ group member
  rw [List.flatMap_map] at drawn
  exact drawn

/-- The place of every node is exact, and nodes are nested and in order.  A tree that is
returned, accepted or recovered, is one that lies along the tokens of its source; so each
node in it stands at the first token it was read from, and that is spelled in the source
as the node begins; a child begins behind its parent, and siblings ascend. -/
theorem nodes_exact (source : String) (file : BuildFile Position)
    (returned : (∃ recovery, parseWith recovery source = .ok file) ∨
      (parseRecovering source).file = some file) :
    (∃ tree : BuildFile Nat, file = tree.mapPosition (tokenPlace source) ∧
      ∃ nodes, LieAlong 0 (tokenize source) nodes ∧
        ∀ group ∈ tree.outlines, group.Sublist nodes) ∧
    ∀ group ∈ file.outlines, Ascending group ∧ ∀ node ∈ group, node.Exact source := by
  obtain ⟨lexed, recovery, tree, read, rfl⟩ : (∃ lexemes, lex source = .ok lexemes) ∧
      ∃ recovery tree, (readTokens recovery (tokenize source)).file = some tree ∧
        file = tree.mapPosition (tokenPlace source) := by
    cases scanned : lex source with
    | error diagnostics =>
      rcases returned with ⟨recovery, accepted⟩ | recovered
      · rw [parseWith, scanned] at accepted
        cases accepted
      · rw [parseRecovering, scanned] at recovered
        cases recovered
    | ok lexemes =>
      obtain ⟨rfl, _⟩ := tokenize_lexed source lexemes scanned
      refine ⟨⟨_, rfl⟩, ?_⟩
      rcases returned with ⟨recovery, accepted⟩ | recovered
      · rw [parseWith, scanned] at accepted
        obtain ⟨tree, read, same⟩ := (parseTokens_ok recovery _ source file).mp accepted
        exact ⟨recovery, tree, congrArg Reading.file read, same⟩
      · rw [parseRecovering, scanned] at recovered
        obtain ⟨tree, read, same⟩ := Option.map_eq_some_iff.mp recovered
        exact ⟨.on, tree, read, same.symm⟩
  obtain ⟨lexemes, scanned⟩ := lexed
  have legal : ∀ lexeme ∈ tokenize source, lexeme.Legal := by
    rw [← (tokenize_lexed source lexemes scanned).2]
    exact lex_legal source lexemes scanned
  obtain ⟨nodes, along, drawn⟩ := readTokens_lays recovery _ tree read
  have spans : Spans (.ofIndex (tokenize source) 0) (tokenize source)
      ⟨(tokenize source).length, []⟩ :=
    ⟨(List.append_nil _).symm, (Nat.zero_add _).symm⟩
  have standing := along.standing legal _ spans
  refine ⟨⟨tree, rfl, nodes, along, drawn⟩, ?_⟩
  intro group member
  rw [BuildFile.outlines_mapPosition] at member
  obtain ⟨origin, chosen, rfl⟩ := List.mem_map.mp member
  have kept := standing.sublist (drawn origin chosen)
  refine ⟨kept.ascending (by omega), ?_⟩
  intro node among
  obtain ⟨inner, original, rfl⟩ := List.mem_map.mp among
  exact kept.placed inner original

/-- A load and the symbol in it, with a parenthesis too many behind them. -/
theorem nodes_exact_load :
    ∃ file, (parseRecovering "load(\"a\", \"b\") )").file = some file ∧
      (file.loads.flatMap Load.symbols).length = 1 ∧
      ∀ group ∈ file.outlines, Ascending group ∧
        ∀ node ∈ group, node.Exact "load(\"a\", \"b\") )" := by
  have lexed : lex "load(\"a\", \"b\") )" = .ok (tokenizeWithSpans "load(\"a\", \"b\") )") :=
    (lex_ok _ _).mpr ⟨by decide +kernel, rfl⟩
  have symbols : (readTokens .on (tokenize "load(\"a\", \"b\") )")).file.map
      (fun tree => (tree.loads.flatMap Load.symbols).length) = some 1 := by decide +kernel
  obtain ⟨tree, read, one⟩ := Option.map_eq_some_iff.mp symbols
  have recovered : (parseRecovering "load(\"a\", \"b\") )").file =
      some (tree.mapPosition (tokenPlace "load(\"a\", \"b\") )")) := by
    rw [parseRecovering, lexed]
    exact congrArg (Option.map _) read
  refine ⟨_, recovered, ?_, (nodes_exact _ _ (.inr recovered)).2⟩
  rw [← one]
  simp [BuildFile.mapPosition, Load.mapPosition, List.flatMap_map, List.length_flatMap]

end BuildLang
