import PhpAudit.Proofs.Syntax.Walk
import PhpAudit.Syntax.Reading

/-!
# The stack reads what the recursion reads

`readWithStack` keeps half-built nodes on a stack and runs on fuel; `read` is the recursion that it
stands for. A construct takes two steps, one to enter it and one to leave it, so the parts of a
frame take twice as many steps as there are nodes in them (`readFrames_pending`). A node is built
for some of the constructs only, and the fuel counts them all, so it never runs out
(`readWithStack_eq_read`).
-/

namespace PhpAudit.Syntax

open PhpAudit.Grammar (Tree)

variable (source : List UInt8)

/-! ## The recursion -/

/-- Of the constructs that interpose text, the texts are read, one by one. -/
theorem readTexts_eq_map (trees : List Tree) :
    readTexts source trees =
      ((trees.filter Tree.named).filter (·.type == "text")).map (read source) := by
  induction trees with
  | nil => rfl
  | cons tree rest ih =>
    obtain ⟨type, named, field, span, children⟩ := tree
    rw [readTexts, ih, List.filter_filter, List.filter_filter, List.filter_cons]
    cases named <;> by_cases htype : type = "text" <;> simp [Tree.named, Tree.type, htype]

/-- What the children of a construct contribute is read, one by one. -/
theorem readParts_eq_map (trees : List Tree) :
    readParts source trees = ((trees.filter Tree.named).flatMap retained).map (read source) := by
  induction trees with
  | nil => rfl
  | cons tree rest ih =>
    obtain ⟨type, named, field, span, children⟩ := tree
    rw [readParts, ih, List.filter_cons, readTexts_eq_map]
    cases named with
    | false => rfl
    | true =>
      simp only [Tree.named, if_true, List.flatMap_cons, List.map_append, retained, isInterposed,
        Tree.type, Bool.not_true, Bool.false_or, beq_iff_eq, Tree.namedChildren, Tree.children]
      congr 1
      split
      · rfl
      · split <;> rfl

/-- The node of a construct is made of the construct and the nodes of its parts. -/
theorem read_eq (tree : Tree) :
    read source tree = nodeOf source tree ((partsOf tree).map (read source)) := by
  obtain ⟨type, named, field, span, children⟩ := tree
  rw [read, readParts_eq_map]
  rfl

/-! ## Sizes -/

/-- A construct among some is no larger than they are together. -/
theorem sizeAll_filter_le (keep : Tree → Bool) (trees : List Tree) :
    sizeAll (trees.filter keep) ≤ sizeAll trees := by
  induction trees with
  | nil => exact Nat.le_refl _
  | cons tree rest ih =>
    rw [List.filter_cons]
    split <;> simp only [sizeAll] <;> omega

/-- Constructs side by side have the size of both. -/
theorem sizeAll_append (first second : List Tree) :
    sizeAll (first ++ second) = sizeAll first + sizeAll second := by
  induction first with
  | nil => simp only [List.nil_append, sizeAll, Nat.zero_add]
  | cons tree rest ih => simp only [List.cons_append, sizeAll, ih, Nat.add_assoc]

/-- The size of a construct, by its children. -/
theorem size_eq (tree : Tree) : size tree = 1 + sizeAll tree.children := by
  obtain ⟨type, named, field, span, children⟩ := tree
  rw [size, Tree.children]

/-- What a child contributes is no larger than the child. -/
theorem sizeAll_retained_le (child : Tree) : sizeAll (retained child) ≤ size child := by
  unfold retained
  split
  · exact Nat.zero_le _
  · split
    · have htexts := sizeAll_filter_le (·.type == "text") child.namedChildren
      have hnamed := sizeAll_filter_le Tree.named child.children
      rw [size_eq]
      unfold Tree.namedChildren at htexts ⊢
      omega
    · simp only [sizeAll, Nat.add_zero, Nat.le_refl]

/-- The parts of a construct are smaller than the construct, all together. -/
theorem sizeAll_partsOf_lt (tree : Tree) : sizeAll (partsOf tree) < size tree := by
  have hflat (children : List Tree) : sizeAll (children.flatMap retained) ≤ sizeAll children := by
    induction children with
    | nil => exact Nat.le_refl _
    | cons child rest ih =>
      have hchild := sizeAll_retained_le child
      rw [List.flatMap_cons, sizeAll_append, sizeAll]
      omega
  have hparts := hflat tree.namedChildren
  have hnamed := sizeAll_filter_le Tree.named tree.children
  rw [size_eq]
  unfold partsOf Tree.namedChildren at *
  omega

/-! ## The stack -/

/-- The number of nodes that are built for some constructs. -/
def nodeCount (trees : List Tree) : Nat := Node.sizeAll (trees.map (read source))

/-- A construct is one node, and those of its parts. -/
theorem nodeCount_cons (tree : Tree) (rest : List Tree) :
    nodeCount source (tree :: rest) =
      1 + nodeCount source (partsOf tree) + nodeCount source rest := by
  rw [nodeCount, List.map_cons, Node.sizeAll, Node.size_eq, read_eq]
  rfl

/-- No more nodes are built than there are constructs and tokens. -/
theorem nodeCount_le_sizeAll (trees : List Tree) : nodeCount source trees ≤ sizeAll trees := by
  match trees with
  | [] => exact Nat.le_refl _
  | tree :: rest =>
    have hsmaller := sizeAll_partsOf_lt tree
    have hparts := nodeCount_le_sizeAll (partsOf tree)
    have hrest := nodeCount_le_sizeAll rest
    rw [nodeCount_cons, sizeAll]
    omega
termination_by sizeAll trees
decreasing_by
  all_goals
    simp only [sizeAll]
    have := size_eq tree
    omega

/-- A frame reads all its pending parts, in two steps for each node, and then stands as it would
with their nodes built. What lies below it on the stack is not touched. -/
theorem readFrames_pending (tree : Tree) (pending : List Tree) (built : List Node)
    (below : List Frame) (fuel : Nat) :
    readFrames source (fuel + 2 * nodeCount source pending) ⟨tree, pending, built⟩ below =
      readFrames source fuel ⟨tree, [], (pending.map (read source)).reverse ++ built⟩ below := by
  match pending with
  | [] => rfl
  | part :: rest =>
    have hsmaller := sizeAll_partsOf_lt part
    have hfuel : fuel + 2 * nodeCount source (part :: rest) =
        (fuel + 2 * nodeCount source rest + 1) + 2 * nodeCount source (partsOf part) + 1 := by
      rw [nodeCount_cons]
      omega
    calc readFrames source (fuel + 2 * nodeCount source (part :: rest))
          ⟨tree, part :: rest, built⟩ below
        = readFrames source
            ((fuel + 2 * nodeCount source rest + 1) + 2 * nodeCount source (partsOf part))
            ⟨part, partsOf part, []⟩ (⟨tree, rest, built⟩ :: below) := by
          rw [hfuel]
          rfl
      _ = readFrames source (fuel + 2 * nodeCount source rest + 1)
            ⟨part, [], ((partsOf part).map (read source)).reverse ++ []⟩
            (⟨tree, rest, built⟩ :: below) := readFrames_pending part (partsOf part) [] _ _
      _ = readFrames source (fuel + 2 * nodeCount source rest)
            ⟨tree, rest, read source part :: built⟩ below := by
          rw [readFrames, List.append_nil, List.reverse_reverse, ← read_eq]
      _ = readFrames source fuel
            ⟨tree, [], (rest.map (read source)).reverse ++ read source part :: built⟩ below :=
          readFrames_pending tree rest _ _ _
      _ = _ := by rw [List.map_cons, List.reverse_cons, List.append_assoc, List.singleton_append]
termination_by sizeAll pending
decreasing_by
  all_goals
    simp only [sizeAll]
    have := size_eq part
    omega

/-- **The stack ends with the node of the recursion**, for a tree of any depth and width. -/
theorem readWithStack_eq_read (tree : Tree) :
    readWithStack source tree = some (read source tree) := by
  have hcount := nodeCount_le_sizeAll source (partsOf tree)
  have hsmaller := sizeAll_partsOf_lt tree
  obtain ⟨spare, hspare⟩ : ∃ spare, 2 * size tree =
      (spare + 1) + 2 * nodeCount source (partsOf tree) :=
    ⟨2 * size tree - 2 * nodeCount source (partsOf tree) - 1, by omega⟩
  rw [readWithStack, Frame.open, hspare, readFrames_pending, readFrames, List.append_nil,
    List.reverse_reverse, ← read_eq]

/-- The nodes of a concrete tree are those of the parts of its root. -/
theorem forestOf_eq_map (root : Tree) :
    forestOf source root = (partsOf root).map (read source) := by
  have hread : readWithStack source = fun tree => some (read source tree) :=
    funext (readWithStack_eq_read source)
  rw [forestOf, hread, List.filterMap_eq_map']

end PhpAudit.Syntax
