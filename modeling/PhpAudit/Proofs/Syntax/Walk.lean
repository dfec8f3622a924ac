import PhpAudit.Syntax.Walk

/-!
# The walk is the listing

`walk` runs an explicit stack on fuel. `walk_eq_listingAll` says that it comes to the recursive
listing, so every law of trees can be proved on the recursion and read off the walk. The fuel is the
number of nodes, and each visit takes exactly one of them off the stack: that is why it suffices,
and why more of it changes nothing.
-/

namespace PhpAudit.Syntax

namespace Node

/-- The size of a tree, by its children. -/
theorem size_eq (node : Node) : node.size = 1 + sizeAll node.children := by
  obtain ⟨_, _, _, _⟩ := node
  rw [size, children]

/-- The listing of a tree: the node itself, then its children's. -/
theorem listing_eq (node : Node) : node.listing = node :: listingAll node.children := by
  obtain ⟨_, _, _, _⟩ := node
  rw [listing, children]

/-- Two forests side by side have the nodes of both. -/
theorem sizeAll_append (first second : List Node) :
    sizeAll (first ++ second) = sizeAll first + sizeAll second := by
  induction first with
  | nil => simp only [List.nil_append, sizeAll, Nat.zero_add]
  | cons node rest ih => simp only [List.cons_append, sizeAll, ih, Nat.add_assoc]

/-- Two forests side by side are listed one after the other. -/
theorem listingAll_append (first second : List Node) :
    listingAll (first ++ second) = listingAll first ++ listingAll second := by
  induction first with
  | nil => simp only [List.nil_append, listingAll]
  | cons node rest ih => simp only [List.cons_append, listingAll, ih, List.append_assoc]

/-- The first child of a kind is of that kind, and no child before it is. -/
theorem childOfKind?_eq_some {node child : Node} {kind : String} :
    node.childOfKind? kind = some child ↔
      ∃ before after, node.children = before ++ child :: after ∧
        (∀ earlier ∈ before, earlier.kind ≠ kind) ∧ child.kind = kind := by
  rw [childOfKind?, List.find?_eq_some_iff_append]
  simp only [beq_iff_eq, Bool.not_eq_true', beq_eq_false_iff_ne]
  constructor
  · rintro ⟨hkind, before, after, hchildren, hbefore⟩
    exact ⟨before, after, hchildren, hbefore, hkind⟩
  · rintro ⟨before, after, hchildren, hbefore, hkind⟩
    exact ⟨hkind, before, after, hchildren, hbefore⟩

mutual

/-- Where a node is listed in a tree, all that is inside it follows at once. -/
theorem exists_listing_append {tree node : Node} {before after : List Node}
    (h : tree.listing = before ++ node :: after) : ∃ rest, node :: after = node.listing ++ rest := by
  obtain ⟨kind, extent, payload, children⟩ := tree
  rw [listing] at h
  cases before with
  | nil =>
    obtain ⟨rfl, rfl⟩ := List.cons.inj h
    exact ⟨[], by rw [listing, List.append_nil]⟩
  | cons first before => exact exists_listing_append_of_all (List.cons.inj h).2

/-- Where a node is listed in a forest, all that is inside it follows at once. -/
theorem exists_listing_append_of_all {forest : List Node} {node : Node} {before after : List Node}
    (h : listingAll forest = before ++ node :: after) :
    ∃ rest, node :: after = node.listing ++ rest := by
  match forest with
  | [] => cases before <;> cases h
  | tree :: more =>
    rw [listingAll] at h
    rcases List.append_eq_append_iff.mp h with ⟨front, -, hmore⟩ | ⟨back, htree, hback⟩
    · exact exists_listing_append_of_all hmore
    · cases back with
      | nil =>
        have hmore : listingAll more = [] ++ node :: after := hback.symm
        exact exists_listing_append_of_all hmore
      | cons first back =>
        rw [List.cons_append] at hback
        obtain ⟨rfl, rfl⟩ := List.cons.inj hback
        obtain ⟨rest, hrest⟩ := exists_listing_append htree
        exact ⟨rest ++ listingAll more, by rw [← List.append_assoc, ← hrest, List.cons_append]⟩

end

/-- With a visit for every node on it, the stack is emptied in the order of its listing. -/
theorem visit_eq_listingAll {fuel : Nat} {stack : List Node} (h : sizeAll stack ≤ fuel) :
    visit fuel stack = listingAll stack := by
  induction fuel generalizing stack with
  | zero =>
    cases stack with
    | nil => rfl
    | cons node rest =>
      rw [sizeAll, size_eq] at h
      omega
  | succ fuel ih =>
    cases stack with
    | nil => rfl
    | cons node rest =>
      have hrest : sizeAll (node.children ++ rest) ≤ fuel := by
        rw [sizeAll, size_eq] at h
        rw [sizeAll_append]
        omega
      rw [visit, ih hrest, listingAll_append, listingAll, listing_eq, List.cons_append]

end Node

/-- The walk of a forest is its listing. -/
theorem walk_eq_listingAll (forest : Forest) : walk forest = Node.listingAll forest :=
  Node.visit_eq_listingAll (Nat.le_refl _)

/-- The walk of one tree is the listing of that tree. -/
theorem walk_singleton (node : Node) : walk [node] = node.listing := by
  rw [walk_eq_listingAll, Node.listingAll, Node.listingAll, List.append_nil]

/-- Where a walk comes to a node, it goes on with all that is inside it. -/
theorem exists_walk_append {forest : Forest} {node : Node} {before after : List Node}
    (h : walk forest = before ++ node :: after) : ∃ rest, node :: after = walk [node] ++ rest := by
  rw [walk_eq_listingAll] at h
  rw [walk_singleton]
  exact Node.exists_listing_append_of_all h

/-- The walk of what is inside one node is a part of the walk of the whole. -/
theorem isInfix_walk_singleton {forest : Forest} {node : Node} (h : node ∈ walk forest) :
    walk [node] <:+: walk forest := by
  obtain ⟨before, after, hwalk⟩ := List.append_of_mem h
  obtain ⟨rest, hrest⟩ := exists_walk_append hwalk
  exact ⟨before, rest, by rw [hwalk, hrest, List.append_assoc]⟩

end PhpAudit.Syntax
