import Mathlib.Data.List.Chain
import PhpAudit.Proofs.Syntax.Reading
import PhpAudit.Syntax.Source

/-!
# Which constructs have a node

A concrete tree is larger than the syntax read off it: it has tokens, comments and tags, and
constructs that only interpose text. `Retained` says of a place in it, from the path up to the root
alone, whether the construct there has a node. `forestBy_mirrors` says that the nodes are those of
the retained constructs: one for each, in the same order, inside one another as the constructs are.
Constructs that interpose text are passed over on the way up, as they have no node themselves.
-/

namespace PhpAudit.Syntax

open PhpAudit.Grammar (Tree)

/-! ## Places -/

/-- A place in a tree: what stands there, and all that it stands in, innermost first. -/
structure Place (α : Type) where
  item : α
  above : List α

/-- The way from a place up to the root, which is not on it. -/
def Place.path {α : Type} (place : Place α) : List α := place.item :: place.above

mutual

/-- The places of a tree that stands in others, in pre-order. -/
def placesIn (above : List Tree) : Tree → List (Place Tree)
  | .node type named field span children =>
    ⟨.node type named field span children, above⟩ ::
      placesInAll (.node type named field span children :: above) children

/-- The places of some trees that stand side by side. -/
def placesInAll (above : List Tree) : List Tree → List (Place Tree)
  | [] => []
  | tree :: rest => placesIn above tree ++ placesInAll above rest

end

/-- The places below the root of a tree, in pre-order. -/
def placesBelow (root : Tree) : List (Place Tree) := placesInAll [] root.children

mutual

/-- The places of a node that stands in others, in pre-order. -/
def Node.placesIn (above : List Node) : Node → List (Place Node)
  | .mk kind extent payload children =>
    ⟨.mk kind extent payload children, above⟩ ::
      Node.placesInAll (.mk kind extent payload children :: above) children

/-- The places of some nodes that stand side by side. -/
def Node.placesInAll (above : List Node) : List Node → List (Place Node)
  | [] => []
  | node :: rest => Node.placesIn above node ++ Node.placesInAll above rest

end

/-- The first place of a tree is its own; the others are those of its children. -/
theorem placesIn_eq (above : List Tree) (tree : Tree) :
    placesIn above tree = ⟨tree, above⟩ :: placesInAll (tree :: above) tree.children := by
  obtain ⟨type, named, field, span, children⟩ := tree
  rw [placesIn, Tree.children]

/-- The first place of a node is its own; the others are those of its children. -/
theorem Node.placesIn_eq (above : List Node) (node : Node) :
    Node.placesIn above node = ⟨node, above⟩ :: Node.placesInAll (node :: above) node.children := by
  obtain ⟨kind, extent, payload, children⟩ := node
  rw [Node.placesIn, Node.children]

mutual

/-- What stands at the places of a node is its listing. -/
theorem Node.map_item_placesIn (above : List Node) (node : Node) :
    (Node.placesIn above node).map Place.item = node.listing := by
  obtain ⟨kind, extent, payload, children⟩ := node
  rw [Node.placesIn, Node.listing, List.map_cons, Node.map_item_placesInAll]

/-- What stands at the places of some nodes is their listing. -/
theorem Node.map_item_placesInAll (above nodes : List Node) :
    (Node.placesInAll above nodes).map Place.item = Node.listingAll nodes := by
  match nodes with
  | [] => rfl
  | node :: rest =>
    rw [Node.placesInAll, Node.listingAll, List.map_append, Node.map_item_placesIn,
      Node.map_item_placesInAll]

end

/-- A walk comes to what stands at the places, in their order. -/
theorem walk_eq_map_item (forest : Forest) :
    walk forest = (Node.placesInAll [] forest).map Place.item := by
  rw [walk_eq_listingAll, Node.map_item_placesInAll]

mutual

/-- Every place of a tree lies on a path that goes through the tree. -/
theorem suffix_of_mem_placesIn {above : List Tree} {tree : Tree} {place : Place Tree}
    (h : place ∈ placesIn above tree) : tree :: above <:+ place.path := by
  obtain ⟨type, named, field, span, children⟩ := tree
  rw [placesIn, List.mem_cons] at h
  rcases h with rfl | h
  · exact List.suffix_rfl
  · exact suffix_of_mem_placesInAll h

/-- Every place of some trees lies on a path that goes through what these stand in. -/
theorem suffix_of_mem_placesInAll {above trees : List Tree} {place : Place Tree}
    (h : place ∈ placesInAll above trees) : above <:+ place.path := by
  match trees with
  | [] => cases h
  | tree :: rest =>
    rw [placesInAll, List.mem_append] at h
    rcases h with h | h
    · exact (List.suffix_cons _ _).trans (suffix_of_mem_placesIn h)
    · exact suffix_of_mem_placesInAll h

end

mutual

/-- What stands above a place of a tree stands above the tree, or has a place in it and children. -/
theorem mem_above_of_mem_placesIn {above : List Tree} {tree outer : Tree} {place : Place Tree}
    (h : place ∈ placesIn above tree) (houter : outer ∈ place.above) :
    outer ∈ above ∨ outer.children ≠ [] ∧ ∃ other ∈ placesIn above tree, other.item = outer := by
  obtain ⟨type, named, field, span, children⟩ := tree
  rw [placesIn, List.mem_cons] at h
  rcases h with rfl | h
  · exact .inl houter
  · rcases mem_above_of_mem_placesInAll h houter with hmem | ⟨hchildren, other, hother, hitem⟩
    · rcases List.mem_cons.mp hmem with rfl | hmem
      · refine .inr ⟨?_, _, List.mem_cons_self, rfl⟩
        rintro (rfl : children = [])
        cases h
      · exact .inl hmem
    · exact .inr ⟨hchildren, other, List.mem_cons_of_mem _ hother, hitem⟩

/-- What stands above a place of some trees stands above these, or has a place in them and
children. -/
theorem mem_above_of_mem_placesInAll {above trees : List Tree} {outer : Tree} {place : Place Tree}
    (h : place ∈ placesInAll above trees) (houter : outer ∈ place.above) :
    outer ∈ above ∨
      outer.children ≠ [] ∧ ∃ other ∈ placesInAll above trees, other.item = outer := by
  match trees with
  | [] => cases h
  | tree :: rest =>
    rw [placesInAll, List.mem_append] at h
    rcases h with h | h
    · refine (mem_above_of_mem_placesIn h houter).imp_right ?_
      exact fun ⟨hchildren, other, hother, hitem⟩ =>
        ⟨hchildren, other, List.mem_append_left _ hother, hitem⟩
    · refine (mem_above_of_mem_placesInAll h houter).imp_right ?_
      exact fun ⟨hchildren, other, hother, hitem⟩ =>
        ⟨hchildren, other, List.mem_append_right _ hother, hitem⟩

end

/-- If tokens have no parts, what a place stands in is no token. -/
theorem named_of_mem_above {root : Tree}
    (hleaves : ∀ place ∈ placesBelow root, place.item.named = false → place.item.children = [])
    {place : Place Tree} (h : place ∈ placesBelow root) :
    ∀ outer ∈ place.above, outer.named = true := by
  intro outer houter
  rcases mem_above_of_mem_placesInAll h houter with hmem | ⟨hchildren, other, hother, rfl⟩
  · cases hmem
  · cases hnamed : other.item.named with
    | true => rfl
    | false => exact absurd (hleaves other hother hnamed) hchildren

/-! ## Retained constructs -/

/-- A path on which nothing hides what stands at its end: it leads through constructs only, none of
which leaves no trace, and out of one that interposes text to a text. -/
structure Visible (path : List Tree) : Prop where
  named : ∀ tree ∈ path, tree.named = true
  traced : ∀ tree ∈ path, tree.type ∉ skippedTypes
  text : path.IsChain fun inner outer => outer.type = "text_interpolation" → inner.type = "text"

/-- A place whose construct has a node: it is visible and does not interpose text. -/
def Retained (place : Place Tree) : Prop :=
  Visible place.path ∧ place.item.type ≠ "text_interpolation"

instance (path : List Tree) : Decidable (Visible path) :=
  decidable_of_iff ((∀ tree ∈ path, tree.named = true) ∧ (∀ tree ∈ path, tree.type ∉ skippedTypes) ∧
      path.IsChain fun inner outer => outer.type = "text_interpolation" → inner.type = "text")
    ⟨fun ⟨named, traced, text⟩ => ⟨named, traced, text⟩,
      fun ⟨named, traced, text⟩ => ⟨named, traced, text⟩⟩

instance : DecidablePred Retained := fun place =>
  inferInstanceAs (Decidable (Visible place.path ∧ place.item.type ≠ "text_interpolation"))

/-- What is visible is visible from further up. -/
theorem Visible.of_suffix {path upper : List Tree} (h : Visible path) (hsuffix : upper <:+ path) :
    Visible upper where
  named tree hmem := h.named tree (hsuffix.subset hmem)
  traced tree hmem := h.traced tree (hsuffix.subset hmem)
  text := h.text.suffix hsuffix

/-- A path leads on to a construct that leaves a trace, which must be a text if the last one
interposes text. -/
theorem visible_cons {tree : Tree} {above : List Tree} :
    Visible (tree :: above) ↔ tree.named = true ∧ tree.type ∉ skippedTypes ∧
      (∀ outer ∈ above.head?, outer.type = "text_interpolation" → tree.type = "text") ∧
        Visible above := by
  constructor
  · intro h
    exact ⟨h.named _ List.mem_cons_self, h.traced _ List.mem_cons_self,
      (List.isChain_cons.mp h.text).1, h.of_suffix (List.suffix_cons _ _)⟩
  · rintro ⟨hnamed, htraced, htext, habove⟩
    exact ⟨List.forall_mem_cons.mpr ⟨hnamed, habove.named⟩,
      List.forall_mem_cons.mpr ⟨htraced, habove.traced⟩, List.isChain_cons.mpr ⟨htext, habove.text⟩⟩

/-- The places of a tree whose constructs have nodes. -/
def retainedIn (above : List Tree) (tree : Tree) : List (Place Tree) :=
  (placesIn above tree).filter Retained

/-- The places of some trees whose constructs have nodes. -/
def retainedInAll (above trees : List Tree) : List (Place Tree) :=
  (placesInAll above trees).filter Retained

/-- The places below a root whose constructs have nodes. -/
def retainedBelow (root : Tree) : List (Place Tree) := (placesBelow root).filter Retained

theorem retainedInAll_cons (above : List Tree) (tree : Tree) (rest : List Tree) :
    retainedInAll above (tree :: rest) = retainedIn above tree ++ retainedInAll above rest := by
  rw [retainedInAll, placesInAll, List.filter_append]
  rfl

/-- A visible construct is retained, with what is retained in it. -/
theorem retainedIn_of_shown {above : List Tree} {tree : Tree} (hvisible : Visible (tree :: above))
    (hshown : tree.type ≠ "text_interpolation") :
    retainedIn above tree = ⟨tree, above⟩ :: retainedInAll (tree :: above) tree.children := by
  rw [retainedIn, placesIn_eq, List.filter_cons_of_pos]
  · rfl
  · exact decide_eq_true ⟨hvisible, hshown⟩

/-- Of a construct that interposes text, only what is in it may be retained. -/
theorem retainedIn_of_interposed (above : List Tree) {tree : Tree}
    (h : tree.type = "text_interpolation") :
    retainedIn above tree = retainedInAll (tree :: above) tree.children := by
  rw [retainedIn, placesIn_eq, List.filter_cons_of_neg]
  · rfl
  · exact fun hretained => (of_decide_eq_true hretained).2 h

/-- Nothing is retained behind what cannot be seen. -/
theorem retainedIn_of_hidden {above : List Tree} {tree : Tree} (h : ¬ Visible (tree :: above)) :
    retainedIn above tree = [] := by
  refine List.filter_eq_nil_iff.mpr fun place hmem hretained => h ?_
  exact (of_decide_eq_true hretained).1.of_suffix (suffix_of_mem_placesIn hmem)

/-! ## The nodes of retained constructs -/

variable (source : List UInt8)

/-- The nodes of all constructs on a path that have one. -/
def nodesOn (path : List Tree) : List Node :=
  (path.filter fun tree => !isInterposed tree).map (read source)

/-- Where the node of a construct stands. -/
def imageOf (place : Place Tree) : Place Node :=
  ⟨read source place.item, nodesOn source place.above⟩

/-- A construct that interposes text adds no node to a path. -/
theorem nodesOn_cons_interposed {tree : Tree} (h : tree.type = "text_interpolation")
    (above : List Tree) : nodesOn source (tree :: above) = nodesOn source above := by
  rw [nodesOn, nodesOn, List.filter_cons_of_neg]
  simp [isInterposed, h]

/-- Any other construct adds its node. -/
theorem nodesOn_cons {tree : Tree} (h : tree.type ≠ "text_interpolation") (above : List Tree) :
    nodesOn source (tree :: above) = read source tree :: nodesOn source above := by
  rw [nodesOn, nodesOn, List.filter_cons_of_pos, List.map_cons]
  simp [isInterposed, h]

/-- The children of a construct's node are read off the construct's children. -/
theorem children_read (tree : Tree) :
    (read source tree).children = readParts source tree.children := by
  obtain ⟨type, named, field, span, children⟩ := tree
  rw [read]
  rfl

theorem Node.placesInAll_append (above first second : List Node) :
    Node.placesInAll above (first ++ second) =
      Node.placesInAll above first ++ Node.placesInAll above second := by
  induction first with
  | nil => rfl
  | cons node rest ih => simp only [List.cons_append, Node.placesInAll, ih, List.append_assoc]

theorem Node.placesInAll_singleton (above : List Node) (node : Node) :
    Node.placesInAll above [node] = Node.placesIn above node := by
  rw [Node.placesInAll, Node.placesInAll, List.append_nil]

mutual

/-- The places of a construct's node are those of the retained constructs in it. -/
theorem map_imageOf_retainedIn (above : List Tree) (tree : Tree)
    (hvisible : Visible (tree :: above)) (hshown : tree.type ≠ "text_interpolation") :
    (retainedIn above tree).map (imageOf source) =
      Node.placesIn (nodesOn source above) (read source tree) := by
  match tree with
  | .node type named field span children =>
    rw [retainedIn_of_shown hvisible hshown, List.map_cons, Node.placesIn_eq, children_read,
      ← nodesOn_cons source hshown, Tree.children,
      map_imageOf_retainedInAll _ children hvisible (by simpa using hshown)]
    rfl
termination_by structural tree

/-- The places of the nodes that some children contribute to a node are those of the retained
constructs in them. -/
theorem map_imageOf_retainedInAll (above trees : List Tree) (hvisible : Visible above)
    (hshown : ∀ outer ∈ above.head?, outer.type ≠ "text_interpolation") :
    (retainedInAll above trees).map (imageOf source) =
      Node.placesInAll (nodesOn source above) (readParts source trees) := by
  -- on the trees in a row; what is below each one is left to the lemmas on a single tree
  match trees with
  | [] => rfl
  | .node type named field span children :: rest =>
    have hchild : Visible (.node type named field span children :: above) ↔
        named = true ∧ type ∉ skippedTypes := by
      rw [visible_cons]
      exact ⟨fun h => ⟨h.1, h.2.1⟩,
        fun h => ⟨h.1, h.2, fun outer hmem htype => absurd htype (hshown outer hmem), hvisible⟩⟩
    rw [retainedInAll_cons, List.map_append, map_imageOf_retainedInAll above rest hvisible hshown,
      readParts, Node.placesInAll_append]
    congr 1
    split
    next hhidden =>
      rw [retainedIn_of_hidden]
      · rfl
      · rw [hchild]
        rintro ⟨hnamed, htraced⟩
        simp [hnamed, htraced] at hhidden
    next hnamed =>
      have hpassed := hchild.mpr (by simpa using hnamed)
      split
      next htype =>
        have hinterposed :
            (Grammar.Tree.node type named field span children).type = "text_interpolation" :=
          eq_of_beq htype
        rw [retainedIn_of_interposed above hinterposed]
        exact map_imageOf_texts _ above children hpassed hinterposed
      next htype =>
        rw [Node.placesInAll_singleton]
        exact map_imageOf_retainedIn above _ hpassed fun h => htype (beq_iff_eq.mpr h)
termination_by structural trees

/-- The places of the nodes that are read from what interposes text are those of the retained
constructs in it. -/
theorem map_imageOf_texts (outer : Tree) (above trees : List Tree)
    (hvisible : Visible (outer :: above)) (houter : outer.type = "text_interpolation") :
    (retainedInAll (outer :: above) trees).map (imageOf source) =
      Node.placesInAll (nodesOn source above) (readTexts source trees) := by
  match trees with
  | [] => rfl
  | .node type named field span children :: rest =>
    rw [retainedInAll_cons, List.map_append, map_imageOf_texts outer above rest hvisible houter,
      readTexts, Node.placesInAll_append]
    congr 1
    split
    next htext =>
      obtain ⟨hnamed, htype⟩ : named = true ∧ type = "text" := by simpa using htext
      rw [Node.placesInAll_singleton, ← nodesOn_cons_interposed source houter]
      refine map_imageOf_retainedIn (outer :: above) _
        (visible_cons.mpr ⟨hnamed, ?_, fun _ _ _ => htype, hvisible⟩) ?_
      · rw [Tree.type, htype]
        decide
      · rw [Tree.type, htype]
        decide
    next hother =>
      rw [retainedIn_of_hidden]
      · rfl
      · intro h
        obtain ⟨hnamed, -, htext, -⟩ := visible_cons.mp h
        exact hother (by simpa using ⟨hnamed, htext outer rfl houter⟩)
termination_by structural trees

end

/-! ## Whole sources -/

/-- A source has the nodes of its concrete tree. A source of blanks is not parsed at all, which
comes to the same if its tree has no constructs. -/
theorem forestBy_eq_forestOf {parse? : List UInt8 → Option Tree} {root : Tree}
    (hparse : parse? source = some root)
    (hblank : isBlankSource source = true → root.namedChildren = []) :
    forestBy parse? source = forestOf source root := by
  rw [forestBy]
  split
  next hsource => rw [forestOf, partsOf, hblank hsource]; rfl
  next => rw [hparse]

/-- A source has the nodes of its concrete tree, or none at all. -/
theorem forestBy_cases (parse? : List UInt8 → Option Tree) :
    forestBy parse? source = [] ∨
      ∃ root, parse? source = some root ∧ forestBy parse? source = forestOf source root := by
  unfold forestBy
  split
  next => exact .inl rfl
  next =>
    cases hparse : parse? source with
    | none => exact .inl rfl
    | some root => exact .inr ⟨root, rfl, rfl⟩

/-- What the nodes of a source owe its concrete tree. -/
structure Mirrors (root : Tree) (forest : Forest) : Prop where
  /-- The walk comes to the nodes of the retained constructs, in the order of the tree. -/
  walk_eq : walk forest = (retainedBelow root).map fun place => read source place.item
  /-- Each node stands in the nodes of the constructs that its own construct stands in. -/
  places_eq : Node.placesInAll [] forest = (retainedBelow root).map (imageOf source)
  /-- Lines and columns are those of the construct, counted from one. -/
  extent_eq : ∀ place ∈ retainedBelow root,
    (read source place.item).extent =
      ⟨place.item.span.startPoint.row + 1, place.item.span.endPoint.row + 1,
        place.item.span.startPoint.column + 1⟩

/-- The nodes of a concrete tree mirror it. -/
theorem forestOf_mirrors (root : Tree) : Mirrors source root (forestOf source root) := by
  have hplaces : Node.placesInAll [] (forestOf source root) =
      (retainedBelow root).map (imageOf source) := by
    have hnodes : forestOf source root = readParts source root.children := by
      rw [forestOf_eq_map, readParts_eq_map]
      rfl
    rw [hnodes, retainedBelow, placesBelow]
    refine (map_imageOf_retainedInAll source [] root.children ?_ ?_).symm
    · exact ⟨nofun, nofun, .nil⟩
    · exact nofun
  refine ⟨?_, hplaces, fun place _ => ?_⟩
  · rw [walk_eq_map_item, hplaces, List.map_map]
    rfl
  · rw [read_eq]
    rfl

/-- Every node of a source is the node of a retained construct. -/
theorem exists_retained_of_mem_walk {parse? : List UInt8 → Option Tree} {node : Node}
    (h : node ∈ walk (forestBy parse? source)) :
    ∃ root, parse? source = some root ∧
      ∃ place ∈ retainedBelow root, read source place.item = node := by
  rcases forestBy_cases source parse? with hnone | ⟨root, hparse, hforest⟩
  · rw [hnone] at h
    cases h
  · rw [hforest, (forestOf_mirrors source root).walk_eq] at h
    exact ⟨root, hparse, List.mem_map.mp h⟩

/-- **The nodes of a source mirror its concrete tree.** The stack that builds them ends, with the
node of the recursion, for every construct; and the nodes are those of the retained constructs, in
their order and inside one another as these are. Where tokens have no parts, as in the trees of a
grammar, what a construct stands in is never hidden for being a token. -/
theorem forestBy_mirrors (parse? : List UInt8 → Option Tree) (root : Tree)
    (hparse : parse? source = some root)
    (hblank : isBlankSource source = true → root.namedChildren = []) :
    (∀ tree, readWithStack source tree = some (read source tree) ∧
        read source tree = nodeOf source tree ((partsOf tree).map (read source))) ∧
      Mirrors source root (forestBy parse? source) ∧
      ((∀ place ∈ placesBelow root, place.item.named = false → place.item.children = []) →
        ∀ place ∈ placesBelow root, ∀ outer ∈ place.above, outer.named = true) := by
  refine ⟨fun tree => ⟨readWithStack_eq_read source tree, read_eq source tree⟩, ?_, ?_⟩
  · rw [forestBy_eq_forestOf source hparse hblank]
    exact forestOf_mirrors source root
  · exact fun hleaves place => named_of_mem_above hleaves

/-- A call, then text between tags, then a comment. -/
def interposedSource : List UInt8 := Text.Utf8.encodeString "<?php f(); ?>a<?php # b\n"

/-- Of the tags and the comment nothing is left, and the text takes the place of what interposes
it. -/
theorem forestBy_mirrors_interposed :
    ∃ root, Grammar.parse? interposedSource = some root ∧
      isBlankSource interposedSource = false ∧
      (retainedBelow root).map (fun place => (place.item.type, place.above.length)) =
        [("expression_statement", 0), ("function_call_expression", 1), ("name", 2),
          ("arguments", 2), ("text", 1)] ∧
      Mirrors interposedSource root (forestBy Grammar.parse? interposedSource) := by
  have hsource : isBlankSource interposedSource = false := by decide +kernel
  have hshape : (Grammar.parse? interposedSource).map
      (fun root => (retainedBelow root).map fun place => (place.item.type, place.above.length)) =
        some [("expression_statement", 0), ("function_call_expression", 1), ("name", 2),
          ("arguments", 2), ("text", 1)] := by
    decide +kernel
  obtain ⟨root, hparse, hretained⟩ := Option.map_eq_some_iff.mp hshape
  have hblank (h : isBlankSource interposedSource = true) : root.namedChildren = [] := by
    rw [hsource] at h
    cases h
  exact ⟨root, hparse, hsource, hretained,
    (forestBy_mirrors interposedSource Grammar.parse? root hparse hblank).2.1⟩

end PhpAudit.Syntax
