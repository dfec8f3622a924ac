import Mathlib.Data.Prod.Lex
import PhpAudit.Proofs.Syntax.Retained
import PhpAudit.Syntax.Query

/-!
# Answers come in the order of the source

Where the constructs of a concrete tree lie in one another and side by side, as a parser leaves them
(`WellPlaced`), the walk over the nodes of a source goes through it from the front to the back. So
does every list that a query answers with, on the whole forest or on one node of it
(`forestBy_inSourceOrder`).

The order is that of the concrete tree: its places come in the order in which they start
(`pairwise_placesIn`), because a construct starts no later than what is inside it, and everything
inside it ends before the next one starts. The nodes are those of some of the places, in their
order, so nothing that is left out or put in the place of something else can disturb it.
-/

namespace PhpAudit.Grammar

/-- What points are compared by: the row, then the column. -/
def Point.rank (point : Point) : ℕ ×ₗ ℕ := toLex (point.row, point.column)

namespace Tree

/-- Where a construct starts. -/
def start (tree : Tree) : ℕ ×ₗ ℕ := tree.span.startPoint.rank

/-- Where a construct ends. -/
def stop (tree : Tree) : ℕ ×ₗ ℕ := tree.span.endPoint.rank

/-- A construct ends no earlier than it starts, encloses what is directly inside it, and has it side
by side there. -/
structure WellPlaced (tree : Tree) : Prop where
  start_le_stop : tree.start ≤ tree.stop
  encloses : ∀ child ∈ tree.children, tree.start ≤ child.start ∧ child.stop ≤ tree.stop
  ordered : tree.children.IsChain fun earlier later => earlier.stop ≤ later.start

instance : DecidablePred WellPlaced := fun tree =>
  decidable_of_iff (tree.start ≤ tree.stop ∧
      (∀ child ∈ tree.children, tree.start ≤ child.start ∧ child.stop ≤ tree.stop) ∧
      tree.children.IsChain fun earlier later => earlier.stop ≤ later.start)
    ⟨fun ⟨start_le_stop, encloses, ordered⟩ => ⟨start_le_stop, encloses, ordered⟩,
      fun ⟨start_le_stop, encloses, ordered⟩ => ⟨start_le_stop, encloses, ordered⟩⟩

end Tree

end PhpAudit.Grammar

namespace PhpAudit.Syntax

open PhpAudit.Grammar (Tree)

/-! ## Concrete trees -/

/-- Constructs of which each starts behind the previous one start behind all previous ones. -/
theorem pairwise_of_isChain {trees : List Tree} (hproper : ∀ tree ∈ trees, tree.start ≤ tree.stop)
    (h : trees.IsChain fun earlier later => earlier.stop ≤ later.start) :
    trees.Pairwise fun earlier later => earlier.stop ≤ later.start := by
  induction trees with
  | nil => exact .nil
  | cons tree rest ih =>
    have hrest := ih (fun other hmem => hproper other (List.mem_cons_of_mem _ hmem)) h.tail
    refine List.pairwise_cons.mpr ⟨?_, hrest⟩
    cases rest with
    | nil => nofun
    | cons next rest =>
      have hnext : tree.stop ≤ next.start := (List.isChain_cons_cons.mp h).1
      refine List.forall_mem_cons.mpr ⟨hnext, ?_⟩
      intro later hlater
      calc tree.stop ≤ next.start := hnext
        _ ≤ next.stop := hproper next (by simp)
        _ ≤ later.start := (List.pairwise_cons.mp hrest).1 later hlater

/-- Each of some constructs that stand side by side has a place. -/
theorem mem_placesInAll (above : List Tree) {trees : List Tree} {tree : Tree} (h : tree ∈ trees) :
    ⟨tree, above⟩ ∈ placesInAll above trees := by
  induction trees with
  | nil => cases h
  | cons first rest ih =>
    rw [placesInAll, List.mem_append]
    rcases List.mem_cons.mp h with rfl | h
    · rw [placesIn_eq]
      exact .inl List.mem_cons_self
    · exact .inr (ih h)

mutual

/-- What is at a place of a construct lies within the construct. -/
theorem within_of_mem_placesIn {above : List Tree} {tree : Tree}
    (h : ∀ place ∈ placesIn above tree, place.item.WellPlaced) {place : Place Tree}
    (hplace : place ∈ placesIn above tree) :
    tree.start ≤ place.item.start ∧ place.item.stop ≤ tree.stop := by
  match tree with
  | .node type named field span children =>
    rw [placesIn] at h hplace
    obtain ⟨htree, hchildren⟩ := List.forall_mem_cons.mp h
    rcases List.mem_cons.mp hplace with rfl | hplace
    · exact ⟨le_rfl, le_rfl⟩
    · obtain ⟨child, hchild, hstart, hstop⟩ := within_of_mem_placesInAll hchildren hplace
      obtain ⟨hfirst, hlast⟩ := htree.encloses child hchild
      exact ⟨hfirst.trans hstart, hstop.trans hlast⟩
termination_by structural tree

/-- What is at a place of some constructs lies within one of them. -/
theorem within_of_mem_placesInAll {above trees : List Tree}
    (h : ∀ place ∈ placesInAll above trees, place.item.WellPlaced) {place : Place Tree}
    (hplace : place ∈ placesInAll above trees) :
    ∃ tree ∈ trees, tree.start ≤ place.item.start ∧ place.item.stop ≤ tree.stop := by
  match trees with
  | [] => cases hplace
  | tree :: rest =>
    rw [placesInAll] at h hplace
    obtain ⟨hfirst, hrest⟩ := List.forall_mem_append.mp h
    rcases List.mem_append.mp hplace with hplace | hplace
    · exact ⟨tree, List.mem_cons_self, within_of_mem_placesIn hfirst hplace⟩
    · obtain ⟨other, hmem, hwithin⟩ := within_of_mem_placesInAll hrest hplace
      exact ⟨other, List.mem_cons_of_mem _ hmem, hwithin⟩
termination_by structural trees

end

mutual

/-- The places of a construct come in the order in which they start. -/
theorem pairwise_placesIn (above : List Tree) (tree : Tree)
    (h : ∀ place ∈ placesIn above tree, place.item.WellPlaced) :
    (placesIn above tree).Pairwise fun a b => a.item.start ≤ b.item.start := by
  match tree with
  | .node type named field span children =>
    have hwithin := @within_of_mem_placesIn above (.node type named field span children) h
    rw [placesIn] at h hwithin ⊢
    obtain ⟨htree, hchildren⟩ := List.forall_mem_cons.mp h
    apply List.pairwise_cons.mpr
    constructor
    · intro place hplace
      exact (hwithin (List.mem_cons_of_mem _ hplace)).1
    · exact pairwise_placesInAll _ children hchildren htree.ordered
termination_by structural tree

/-- The places of some constructs that stand side by side come in the order in which they start. -/
theorem pairwise_placesInAll (above trees : List Tree)
    (h : ∀ place ∈ placesInAll above trees, place.item.WellPlaced)
    (hordered : trees.IsChain fun earlier later => earlier.stop ≤ later.start) :
    (placesInAll above trees).Pairwise fun a b => a.item.start ≤ b.item.start := by
  match trees with
  | [] => exact .nil
  | tree :: rest =>
    have hproper : ∀ other ∈ tree :: rest, other.start ≤ other.stop := by
      intro other hmem
      exact (h _ (mem_placesInAll above hmem)).start_le_stop
    obtain ⟨hlater, -⟩ := List.pairwise_cons.mp (pairwise_of_isChain hproper hordered)
    rw [placesInAll] at h ⊢
    obtain ⟨hfirst, hrest⟩ := List.forall_mem_append.mp h
    have htree := pairwise_placesIn above tree hfirst
    have hafter := pairwise_placesInAll above rest hrest hordered.tail
    refine List.pairwise_append.mpr ⟨htree, hafter, ?_⟩
    intro place hplace other hother
    obtain ⟨next, hnext, hstart, -⟩ := within_of_mem_placesInAll hrest hother
    calc place.item.start ≤ place.item.stop := (hfirst place hplace).start_le_stop
      _ ≤ tree.stop := (within_of_mem_placesIn hfirst hplace).2
      _ ≤ next.start := hlater next hnext
      _ ≤ other.item.start := hstart
termination_by structural trees

end

mutual

/-- What is directly inside something that has a place has a place itself. -/
theorem mem_placesIn_of_child {above : List Tree} {tree child : Tree} {place : Place Tree}
    (h : place ∈ placesIn above tree) (hchild : child ∈ place.item.children) :
    ⟨child, place.path⟩ ∈ placesIn above tree := by
  match tree with
  | .node type named field span children =>
    rw [placesIn, List.mem_cons] at h ⊢
    rcases h with rfl | h
    · exact .inr (mem_placesInAll _ hchild)
    · exact .inr (mem_placesInAll_of_child h hchild)
termination_by structural tree

theorem mem_placesInAll_of_child {above trees : List Tree} {child : Tree} {place : Place Tree}
    (h : place ∈ placesInAll above trees) (hchild : child ∈ place.item.children) :
    ⟨child, place.path⟩ ∈ placesInAll above trees := by
  match trees with
  | [] => cases h
  | tree :: rest =>
    rw [placesInAll, List.mem_append] at h ⊢
    exact h.imp (fun h => mem_placesIn_of_child h hchild) fun h => mem_placesInAll_of_child h hchild
termination_by structural trees

end

/-- The parts of a construct lie within it, also those that take the place of something else. -/
theorem within_of_mem_partsOf {tree part : Tree} (htree : tree.WellPlaced)
    (hchildren : ∀ child ∈ tree.children, child.WellPlaced) (h : part ∈ partsOf tree) :
    tree.start ≤ part.start ∧ part.stop ≤ tree.stop := by
  obtain ⟨child, hnamed, hpart⟩ := List.mem_flatMap.mp h
  have hchild : child ∈ tree.children := List.mem_of_mem_filter hnamed
  obtain ⟨hfirst, hlast⟩ := htree.encloses child hchild
  unfold retained at hpart
  split at hpart
  next => cases hpart
  next =>
    split at hpart
    next =>
      have hmem : part ∈ child.children := List.mem_of_mem_filter (List.mem_of_mem_filter hpart)
      obtain ⟨hstart, hstop⟩ := (hchildren child hchild).encloses part hmem
      exact ⟨hfirst.trans hstart, hstop.trans hlast⟩
    next =>
      rw [List.mem_singleton.mp hpart]
      exact ⟨hfirst, hlast⟩

/-! ## Nodes -/

/-- What nodes are compared by: the line in which they start, then the column. -/
def Node.start (node : Node) : ℤ ×ₗ ℤ := toLex (node.startLine, node.startColumn)

/-- Nodes that come in the order in which they start. -/
def InSourceOrder (nodes : List Node) : Prop := nodes.Pairwise fun a b => a.start ≤ b.start

variable {source : List UInt8} {tree other : Tree}

theorem startLine_read (tree : Tree) :
    (read source tree).startLine = tree.span.startPoint.row + 1 := by
  rw [read_eq]
  rfl

theorem endLine_read (tree : Tree) :
    (read source tree).endLine = tree.span.endPoint.row + 1 := by
  rw [read_eq]
  rfl

theorem startColumn_read (tree : Tree) :
    (read source tree).startColumn = tree.span.startPoint.column + 1 := by
  rw [read_eq]
  rfl

/-- Nodes start in the order of their constructs. -/
theorem start_read_le (h : tree.start ≤ other.start) :
    (read source tree).start ≤ (read source other).start := by
  rw [Tree.start, Tree.start, Grammar.Point.rank, Grammar.Point.rank, Prod.Lex.toLex_le_toLex] at h
  rw [Node.start, Node.start, Prod.Lex.toLex_le_toLex]
  simp only [startLine_read, startColumn_read]
  omega

/-- What does not come before a point is not in a row above it. -/
theorem row_le_of_rank_le {p q : Grammar.Point} (h : p.rank ≤ q.rank) : p.row ≤ q.row := by
  rw [Grammar.Point.rank, Grammar.Point.rank, Prod.Lex.toLex_le_toLex] at h
  omega

/-- The lines of the nodes of a forest lie in one another as the nodes do, and its walk goes from
the front to the back. -/
structure FollowsSource (forest : Forest) : Prop where
  lines : ∀ node ∈ walk forest, node.startLine ≤ node.endLine
  encloses : ∀ node ∈ walk forest, ∀ child ∈ node.children,
    node.startLine ≤ child.startLine ∧ child.endLine ≤ node.endLine
  walk : InSourceOrder (walk forest)

/-- The nodes of a concrete tree follow the source if its constructs are placed well. -/
theorem forestOf_followsSource {root : Tree} (hroot : root.WellPlaced)
    (h : ∀ place ∈ placesBelow root, place.item.WellPlaced) :
    FollowsSource (forestOf source root) := by
  have hmirrors := forestOf_mirrors source root
  -- every node of the walk is read off a retained place, where the tree is well placed
  have hplace {node : Node} (hnode : node ∈ walk (forestOf source root)) :
      ∃ place ∈ placesBelow root, read source place.item = node := by
    rw [hmirrors.walk_eq] at hnode
    obtain ⟨place, hmem, hread⟩ := List.mem_map.mp hnode
    exact ⟨place, List.mem_of_mem_filter hmem, hread⟩
  constructor
  case lines =>
    intro node hnode
    obtain ⟨place, hmem, rfl⟩ := hplace hnode
    have hrow := row_le_of_rank_le (h place hmem).start_le_stop
    rw [startLine_read, endLine_read]
    omega
  case encloses =>
    intro node hnode child hchild
    obtain ⟨place, hmem, rfl⟩ := hplace hnode
    have hparts : (read source place.item).children = (partsOf place.item).map (read source) := by
      rw [read_eq]
      rfl
    rw [hparts] at hchild
    obtain ⟨part, hpart, rfl⟩ := List.mem_map.mp hchild
    have hchildren : ∀ child ∈ place.item.children, child.WellPlaced := by
      intro child hchild
      exact h _ (mem_placesInAll_of_child hmem hchild)
    obtain ⟨hstart, hstop⟩ := within_of_mem_partsOf (h place hmem) hchildren hpart
    have hstart := row_le_of_rank_le hstart
    have hstop := row_le_of_rank_le hstop
    simp only [startLine_read, endLine_read]
    omega
  case walk =>
    have hplaces := pairwise_placesInAll [] root.children h hroot.ordered
    rw [InSourceOrder, hmirrors.walk_eq, List.pairwise_map]
    exact (hplaces.sublist List.filter_sublist).imp start_read_le

/-! ## Answers -/

/-- Every list that a query answers with comes in the order of the source. -/
structure AnswersInOrder (subject : Subject) : Prop where
  findAll : ∀ condition, InSourceOrder (subject.findAll condition)
  ofKind : ∀ kind, InSourceOrder (subject.ofKind kind)
  methodCalls : ∀ method, InSourceOrder (subject.methodCalls method)
  staticCalls : ∀ type method, InSourceOrder (subject.staticCalls type method)
  functionCalls : ∀ function, InSourceOrder (subject.functionCalls function)
  declarations : ∀ kind, InSourceOrder (subject.declarations kind)
  methodDeclarations : ∀ owner, InSourceOrder (subject.methodDeclarations owner)

theorem findAll_inSourceOrder {nodes : Forest} (h : InSourceOrder (walk nodes))
    (condition : Node → Bool) : InSourceOrder ((Subject.forest nodes).findAll condition) :=
  h.sublist List.filter_sublist

/-- The walk of one node of a forest comes in order if that of the forest does. -/
theorem walk_singleton_inSourceOrder {nodes : Forest} (h : InSourceOrder (walk nodes)) {node : Node}
    (hnode : node ∈ walk nodes) : InSourceOrder (walk [node]) :=
  h.sublist (isInfix_walk_singleton hnode).sublist

/-- Queries answer in the order of the walk. -/
theorem answersInOrder_of_walk {nodes : Forest} (h : InSourceOrder (walk nodes)) :
    AnswersInOrder (.forest nodes) where
  findAll := findAll_inSourceOrder h
  ofKind _ := findAll_inSourceOrder h _
  methodCalls _ := findAll_inSourceOrder h _
  staticCalls _ _ := findAll_inSourceOrder h _
  functionCalls _ := findAll_inSourceOrder h _
  declarations kind := by
    unfold Subject.declarations
    split
    · exact findAll_inSourceOrder h _
    · exact .nil
  methodDeclarations owner := by
    cases owner with
    | none => exact findAll_inSourceOrder h _
    | some owner =>
      rw [Subject.methodDeclarations]
      split
      next declaration hfound =>
        have hmem : declaration ∈ walk nodes := List.mem_of_find?_eq_some hfound
        exact findAll_inSourceOrder (walk_singleton_inSourceOrder h hmem) _
      next => exact .nil

/-- **Nodes and answers come in the order of the source.** Of a well-placed concrete tree, nodes lie
within the lines of the node that they are in, the walk comes to them in the order in which they
start, and every query answers in that order, about the forest and about each node of it. -/
theorem forestBy_inSourceOrder (source : List UInt8) (parse? : List UInt8 → Option Tree)
    (hplaced : ∀ root, parse? source = some root →
      root.WellPlaced ∧ ∀ place ∈ placesBelow root, place.item.WellPlaced) :
    FollowsSource (forestBy parse? source) ∧
      AnswersInOrder (.forest (forestBy parse? source)) ∧
      ∀ node ∈ walk (forestBy parse? source), AnswersInOrder (.tree node) := by
  have hfollows : FollowsSource (forestBy parse? source) := by
    rcases forestBy_cases source parse? with hnone | ⟨root, hparse, hforest⟩
    · rw [hnone]
      exact ⟨nofun, nofun, .nil⟩
    · obtain ⟨hroot, hbelow⟩ := hplaced root hparse
      rw [hforest]
      exact forestOf_followsSource hroot hbelow
  exact ⟨hfollows, answersInOrder_of_walk hfollows.walk, fun node hnode =>
    answersInOrder_of_walk (walk_singleton_inSourceOrder hfollows.walk hnode)⟩

/-- Two calls of a function, with text between tags and a chain of calls over two lines. -/
def chainedSource : List UInt8 := Text.Utf8.encodeString
  "<?php f(); ?>a\n<?php $a->g()\n  ->h(f());"

/-- The calls are found from the front to the back, though the second one is inside two others. -/
theorem forestBy_inSourceOrder_chainedSource :
    ∃ root, Grammar.parse? chainedSource = some root ∧
      (root.WellPlaced ∧ ∀ place ∈ placesBelow root, place.item.WellPlaced) ∧
      ((Subject.forest (forestOf chainedSource root)).functionCalls "f").map Node.start =
        [toLex (1, 7), toLex (3, 7)] ∧
      FollowsSource (forestBy Grammar.parse? chainedSource) ∧
      AnswersInOrder (.forest (forestBy Grammar.parse? chainedSource)) := by
  have hroot : (Grammar.parse? chainedSource).map (fun root =>
      (decide (root.WellPlaced ∧ ∀ place ∈ placesBelow root, place.item.WellPlaced),
        ((Subject.forest (forestOf chainedSource root)).functionCalls "f").map Node.start)) =
      some (true, [toLex (1, 7), toLex (3, 7)]) := by
    decide +kernel
  obtain ⟨root, hparse, hfacts⟩ := Option.map_eq_some_iff.mp hroot
  simp only [Prod.mk.injEq, decide_eq_true_iff] at hfacts
  obtain ⟨hplaced, hcalls⟩ := hfacts
  have hall : ∀ other, Grammar.parse? chainedSource = some other →
      other.WellPlaced ∧ ∀ place ∈ placesBelow other, place.item.WellPlaced := by
    simpa only [hparse, Option.some_inj, forall_eq'] using hplaced
  obtain ⟨hfollows, hanswers, -⟩ := forestBy_inSourceOrder chainedSource Grammar.parse? hall
  exact ⟨root, hparse, hplaced, hcalls, hfollows, hanswers⟩

end PhpAudit.Syntax
