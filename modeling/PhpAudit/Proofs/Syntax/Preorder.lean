import Mathlib.Data.List.Lex
import PhpAudit.Proofs.Syntax.Walk
import PhpAudit.Syntax.Query

/-!
# Pre-order

A walk keeps a stack whose top is its last node. Each turn takes the top off, visits it and puts its
children on the stack, the first of them on top; `Empties` is a whole run of such turns. A run that
starts with a forest comes to an end and visits the forest in pre-order (`walk_preorder`), and the
laws of walks and searches that every query rests on follow from that.

Pre-order is said without a walk: a node of a forest has an address, the indexes by which it is
reached from the top, and pre-order is the lexicographic order of addresses, in which what stands
above comes before what stands below it. Two nodes can be equal, two addresses cannot, so that
"once for each node" means once for each address.
-/

namespace PhpAudit.Syntax

/-! ## Addresses -/

/-- The node that is reached from a node by going down to the child under each index. -/
def Node.at? : List Nat → Node → Option Node
  | [], node => some node
  | index :: address, node => node.children[index]?.bind (Node.at? address)

/-- The node of a forest under an address, which begins with the index of a tree. -/
def nodeAt? (forest : Forest) : List Nat → Option Node
  | [] => none
  | index :: address => forest[index]?.bind (Node.at? address)

namespace Node

mutual

/-- The addresses of all that is reached from a node. -/
def addresses : Node → List (List Nat)
  | .mk _ _ _ children => [] :: addressesAll children

/-- The addresses of all nodes of a forest. -/
def addressesAll : List Node → List (List Nat)
  | [] => []
  | node :: rest => node.addresses.map (0 :: ·) ++ (addressesAll rest).map (List.modifyHead (· + 1))

end

/-- A tree in front of a forest pushes its addresses up by one. -/
theorem nodeAt?_modifyHead (node : Node) (rest : Forest) (address : List Nat) :
    nodeAt? (node :: rest) (address.modifyHead (· + 1)) = nodeAt? rest address := by
  cases address with
  | nil => rfl
  | cons index address => rw [List.modifyHead_cons, nodeAt?, nodeAt?, List.getElem?_cons_succ]

mutual

/-- A node is reached under an address exactly when the address is listed. -/
theorem mem_addresses {node : Node} {address : List Nat} :
    address ∈ node.addresses ↔ (at? address node).isSome = true := by
  obtain ⟨kind, extent, payload, children⟩ := node
  rw [addresses, List.mem_cons, mem_addressesAll]
  cases address with
  | nil => exact iff_of_true (.inl rfl) rfl
  | cons index address => exact or_iff_right (List.cons_ne_nil index address)

/-- A forest has a node under an address exactly when the address is listed. -/
theorem mem_addressesAll {forest : List Node} {address : List Nat} :
    address ∈ addressesAll forest ↔ (nodeAt? forest address).isSome = true := by
  match forest with
  | [] => cases address <;> simp [addressesAll, nodeAt?]
  | node :: rest =>
    rw [addressesAll, List.mem_append, List.mem_map, List.mem_map]
    constructor
    · rintro (⟨inner, hinner, rfl⟩ | ⟨other, hother, rfl⟩)
      · exact mem_addresses.mp hinner
      · rw [nodeAt?_modifyHead]
        exact mem_addressesAll.mp hother
    · intro h
      match address with
      | [] => cases h
      | 0 :: inner => exact .inl ⟨inner, mem_addresses.mpr h, rfl⟩
      | (index + 1) :: inner => exact .inr ⟨index :: inner, mem_addressesAll.mpr h, rfl⟩

end

/-- The address of a node of a forest begins with the index of a tree. -/
theorem exists_cons_of_mem_addressesAll {forest : List Node} {address : List Nat}
    (h : address ∈ addressesAll forest) : ∃ index inner, address = index :: inner := by
  rw [mem_addressesAll] at h
  cases address with
  | nil => cases h
  | cons index inner => exact ⟨index, inner, rfl⟩

mutual

/-- The addresses inside a node ascend. -/
theorem pairwise_addresses (node : Node) : node.addresses.Pairwise (· < ·) := by
  obtain ⟨kind, extent, payload, children⟩ := node
  rw [addresses, List.pairwise_cons]
  refine ⟨fun address haddress => ?_, pairwise_addressesAll children⟩
  obtain ⟨index, inner, rfl⟩ := exists_cons_of_mem_addressesAll haddress
  exact List.nil_lt_cons index inner

/-- The addresses of a forest ascend. -/
theorem pairwise_addressesAll (forest : List Node) : (addressesAll forest).Pairwise (· < ·) := by
  match forest with
  | [] => exact .nil
  | node :: rest =>
    rw [addressesAll, List.pairwise_append]
    refine ⟨?_, ?_, ?_⟩
    · rw [List.pairwise_map]
      refine (pairwise_addresses node).imp fun hlt => ?_
      exact List.cons_lt_cons_iff.mpr (.inr ⟨rfl, hlt⟩)
    · rw [List.pairwise_map]
      refine (pairwise_addressesAll rest).imp_of_mem fun hfirst hsecond hlt => ?_
      obtain ⟨i, inner₁, rfl⟩ := exists_cons_of_mem_addressesAll hfirst
      obtain ⟨j, inner₂, rfl⟩ := exists_cons_of_mem_addressesAll hsecond
      rw [List.cons_lt_cons_iff] at hlt
      rw [List.modifyHead_cons, List.modifyHead_cons, List.cons_lt_cons_iff]
      exact hlt.imp Nat.succ_lt_succ (And.imp_left (congrArg Nat.succ))
    · intro first hfirst second hsecond
      obtain ⟨inner, -, rfl⟩ := List.mem_map.mp hfirst
      obtain ⟨other, hother, rfl⟩ := List.mem_map.mp hsecond
      obtain ⟨index, inner', rfl⟩ := exists_cons_of_mem_addressesAll hother
      exact List.cons_lt_cons_iff.mpr (.inl (Nat.succ_pos index))

end

mutual

/-- What stands under the addresses of a node is its listing. -/
theorem map_at?_addresses (node : Node) :
    node.addresses.map (at? · node) = node.listing.map some := by
  obtain ⟨kind, extent, payload, children⟩ := node
  rw [addresses, listing, List.map_cons, List.map_cons, ← map_nodeAt?_addressesAll children]
  congr 1
  refine List.map_congr_left fun address haddress => ?_
  obtain ⟨index, inner, rfl⟩ := exists_cons_of_mem_addressesAll haddress
  rfl

/-- What stands under the addresses of a forest is its listing. -/
theorem map_nodeAt?_addressesAll (forest : List Node) :
    (addressesAll forest).map (nodeAt? forest) = (listingAll forest).map some := by
  match forest with
  | [] => rfl
  | node :: rest =>
    rw [addressesAll, listingAll, List.map_append, List.map_append, List.map_map, List.map_map,
      ← map_at?_addresses node, ← map_nodeAt?_addressesAll rest]
    congr 1
    exact List.map_congr_left fun address _ => nodeAt?_modifyHead node rest address

end

/-! ## Runs of the stack -/

/-- A run from a stack, whose top is its last node, until nothing is left on it, and the nodes that
are visited: each turn takes off the top and puts its children on, the last one first. -/
inductive Empties : List Node → List Node → Prop where
  | done : Empties [] []
  | turn {below visited : List Node} {top : Node}
      (rest : Empties (below ++ top.children.reverse) visited) :
      Empties (below ++ [top]) (top :: visited)

/-- A turn keeps what is visited and what is still to be listed together, so a run comes to the
listing. -/
theorem Empties.eq_listingAll {stack visited : List Node} (h : Empties stack visited) :
    visited = listingAll stack.reverse := by
  induction h with
  | done => rfl
  | @turn below visited top _ ih =>
    rw [List.reverse_append, List.reverse_reverse, listingAll_append] at ih
    rw [List.reverse_append, List.reverse_singleton, List.singleton_append, listingAll, listing_eq,
      ih, List.cons_append]

/-- There is a run from every forest: each turn leaves one node less to be visited. -/
theorem empties_listingAll (forest : List Node) : Empties forest.reverse (listingAll forest) := by
  match forest with
  | [] => exact .done
  | node :: rest =>
    have hrest := empties_listingAll (node.children ++ rest)
    rw [List.reverse_append, listingAll_append] at hrest
    rw [List.reverse_cons, listingAll, listing_eq, List.cons_append]
    exact .turn hrest
termination_by sizeAll forest
decreasing_by
  rw [sizeAll_append, sizeAll, size_eq]
  omega

/-- The first visits are those of the first nodes that are listed. -/
theorem visit_eq_take (visits : Nat) (stack : List Node) :
    visit visits stack = (listingAll stack).take visits := by
  induction visits generalizing stack with
  | zero => rfl
  | succ visits ih =>
    cases stack with
    | nil => rfl
    | cons node rest =>
      rw [visit, ih, listingAll, listing_eq, List.cons_append, List.take_succ_cons,
        listingAll_append]

mutual

/-- A listing has as many nodes as the tree. -/
theorem length_listing (node : Node) : node.listing.length = node.size := by
  obtain ⟨kind, extent, payload, children⟩ := node
  rw [listing, size, List.length_cons, length_listingAll, Nat.add_comm]

/-- A listing has as many nodes as the forest. -/
theorem length_listingAll (forest : List Node) :
    (listingAll forest).length = sizeAll forest := by
  match forest with
  | [] => rfl
  | node :: rest =>
    rw [listingAll, sizeAll, List.length_append, length_listing, length_listingAll]

end

end Node

/-! ## Walks -/

/-- Nodes listed in pre-order: one for each address of a forest, in the order of the addresses. -/
def InPreorder (forest : Forest) (nodes : List Node) : Prop :=
  ∃ addresses : List (List Nat), addresses.Pairwise (· < ·) ∧
    (∀ address, address ∈ addresses ↔ (nodeAt? forest address).isSome = true) ∧
    addresses.map (nodeAt? forest) = nodes.map some

/-- The first node that satisfies a condition is the first of all that do. -/
theorem Subject.findFirst?_eq_head? (subject : Subject) (condition : Node → Bool) :
    subject.findFirst? condition = (subject.findAll condition).head? := by
  rw [Subject.findFirst?, Subject.findAll, List.head?_filter]

/-- **Walks are in pre-order.** The stack of a forest has one run, which comes to an end and visits
what the walk lists: every node of the forest once and in pre-order, the first ones in the first
turns, and no more than there are. A walk of two forests side by side is that of the first and then
of the second. Wherever a walk comes to a node, it goes on with the walk of that node. In a forest
or a stream of its nodes, the first node that satisfies a condition is the first of all that the
walk lists, and there is none only if nothing is listed. -/
theorem walk_preorder (forest : Forest) :
    (∀ visited, Node.Empties forest.reverse visited ↔ visited = walk forest) ∧
    (walk forest = Node.listingAll forest ∧ InPreorder forest (walk forest)) ∧
    ((∀ turns, Node.visit turns forest = (walk forest).take turns) ∧
      (walk forest).length = Node.sizeAll forest) ∧
    (∀ other, walk (forest ++ other) = walk forest ++ walk other) ∧
    (∀ before node after, walk forest = before ++ node :: after →
      ∃ rest, walk forest = before ++ walk [node] ++ rest) ∧
    ∀ subject ∈ [Subject.forest forest, .stream forest], ∀ condition,
      subject.findAll condition = (walk forest).filter condition ∧
      subject.findFirst? condition = (subject.findAll condition).head? ∧
      (subject.findFirst? condition = none ↔ subject.findAll condition = []) := by
  have hwalk : walk forest = Node.listingAll forest := walk_eq_listingAll forest
  refine ⟨fun visited => ?_, ⟨hwalk, ?_⟩, ⟨fun turns => ?_, ?_⟩, fun other => ?_, ?_, ?_⟩
  · rw [hwalk]
    constructor
    · intro hrun
      rw [hrun.eq_listingAll, List.reverse_reverse]
    · intro hvisited
      rw [hvisited]
      exact Node.empties_listingAll forest
  · rw [hwalk]
    exact ⟨Node.addressesAll forest, Node.pairwise_addressesAll forest,
      fun address => Node.mem_addressesAll, Node.map_nodeAt?_addressesAll forest⟩
  · rw [hwalk, Node.visit_eq_take]
  · rw [hwalk, Node.length_listingAll]
  · rw [walk_eq_listingAll, Node.listingAll_append, ← walk_eq_listingAll, ← walk_eq_listingAll]
  · intro before node after hnode
    obtain ⟨rest, hrest⟩ := exists_walk_append hnode
    exact ⟨rest, by rw [hnode, hrest, List.append_assoc]⟩
  · intro subject hsubject condition
    have hvisit : subject.visit.1 = walk forest := by
      rcases List.mem_pair.mp hsubject with rfl | rfl <;> rfl
    refine ⟨by rw [Subject.findAll, hvisit], subject.findFirst?_eq_head? condition, ?_⟩
    rw [subject.findFirst?_eq_head?]
    exact List.head?_eq_none_iff

/-- A declaration with two equal nodes inside. -/
def twins : Node :=
  .mk "class" ⟨1, 3, 1⟩ {} [.mk "name" ⟨2, 2, 1⟩ {} [], .mk "name" ⟨2, 2, 1⟩ {} []]

/-- The walk comes to both of the equal nodes, and wherever it comes to one goes on behind it. -/
theorem walk_preorder_twins :
    walk [twins] = twins :: twins.children ∧ InPreorder [twins] (twins :: twins.children) ∧
      ∃ rest, walk [twins] = [twins] ++ walk [.mk "name" ⟨2, 2, 1⟩ {} []] ++ rest := by
  have hwalk : walk [twins] = twins :: twins.children := rfl
  obtain ⟨-, ⟨-, hpreorder⟩, -, -, hinside, -⟩ := walk_preorder [twins]
  rw [hwalk] at hpreorder
  exact ⟨hwalk, hpreorder, hinside [twins] _ [.mk "name" ⟨2, 2, 1⟩ {} []] rfl⟩

end PhpAudit.Syntax
