import PhpAudit.Proofs.Syntax.Retained
import PhpAudit.Proofs.Syntax.Stream

/-!
# Comments and tags do not change what is read

`stripped` takes every comment and every tag out of a concrete tree. The nodes of a source are the
same afterwards (`forestBy_stripped`), with all they carry, and so are the answers to all queries.

Comments and tags have no nodes, which is half of the reason. The other half is that a construct
looks at what is inside it to find its name, its operator, its modifiers and its embedded values,
and must find the same there without them. Of a construct that keeps them aside (`KeepsAside`) this
holds: it looks into fields, which they do not fill, or for a construct of some type, which they are
not. Only the embedded values of a literal are told by what they are not, so a comment directly
inside a literal would count as one.
-/

namespace PhpAudit.Syntax

open PhpAudit.Grammar (Tree)

mutual

/-- A concrete tree without the comments and tags in it. -/
def stripped : Tree → Tree
  | .node type named field span children => .node type named field span (strippedAll children)

/-- Some constructs without the comments and tags among them and in them. -/
def strippedAll : List Tree → List Tree
  | [] => []
  | tree :: rest =>
    if tree.type ∈ skippedTypes then strippedAll rest else stripped tree :: strippedAll rest

end

/-- The literals that can hold values, and the lines of one. -/
def embeddingTypes : List String := ["encapsed_string", "heredoc", "heredoc_body"]

/-- A construct in which comments and tags fill no field, and which is no literal if it has any. -/
structure KeepsAside (tree : Tree) : Prop where
  field : ∀ child ∈ tree.children, child.type ∈ skippedTypes → child.field = none
  literal : ∀ child ∈ tree.children, child.type ∈ skippedTypes → tree.type ∉ embeddingTypes

instance : DecidablePred KeepsAside := fun tree =>
  decidable_of_iff ((∀ child ∈ tree.children, child.type ∈ skippedTypes → child.field = none) ∧
      ∀ child ∈ tree.children, child.type ∈ skippedTypes → tree.type ∉ embeddingTypes)
    ⟨fun ⟨field, literal⟩ => ⟨field, literal⟩, fun ⟨field, literal⟩ => ⟨field, literal⟩⟩

variable {source : List UInt8} {tree : Tree}

/-! ## What stays -/

@[simp] theorem type_stripped (tree : Tree) : (stripped tree).type = tree.type := by
  cases tree
  rfl

@[simp] theorem named_stripped (tree : Tree) : (stripped tree).named = tree.named := by
  cases tree
  rfl

@[simp] theorem field_stripped (tree : Tree) : (stripped tree).field = tree.field := by
  cases tree
  rfl

@[simp] theorem span_stripped (tree : Tree) : (stripped tree).span = tree.span := by
  cases tree
  rfl

/-- The children of a stripped tree are the kept ones, each stripped. -/
theorem children_stripped (tree : Tree) : (stripped tree).children = strippedAll tree.children := by
  cases tree
  rfl

/-- The text under a tree is a matter of its span, which stripping keeps. -/
@[simp] theorem textOf_stripped (tree : Tree) :
    textOf source (stripped tree) = textOf source tree := by
  rw [textOf, textOf, span_stripped]

@[simp] theorem stringOf_stripped (tree : Tree) :
    stringOf source (stripped tree) = stringOf source tree := by
  rw [stringOf, stringOf, textOf_stripped]

/-- A literal name is read off the tree itself, whatever stands below. -/
@[simp] theorem literalName?_stripped (types : List String) (tree : Tree) :
    literalName? source types (stripped tree) = literalName? source types tree := by
  rw [literalName?, literalName?, type_stripped, textOf_stripped]

/-! ## What is found inside -/

/-- What is not taken out stays in its place. -/
theorem strippedAll_eq_map (trees : List Tree) :
    strippedAll trees = (trees.filter fun tree => tree.type ∉ skippedTypes).map stripped := by
  induction trees with
  | nil => rfl
  | cons tree rest ih =>
    rw [strippedAll, List.filter_cons, ih]
    by_cases h : tree.type ∈ skippedTypes
    · rw [if_pos h, if_neg (by simpa using h)]
    · rw [if_neg h, if_pos (by simpa using h), List.map_cons]

/-- What is looked for stays the first of its kind, unless comments or tags are looked for. -/
theorem find?_strippedAll {condition : Tree → Bool} {trees : List Tree}
    (hstripped : ∀ tree, condition (stripped tree) = condition tree)
    (hskipped : ∀ tree ∈ trees, tree.type ∈ skippedTypes → condition tree = false) :
    (strippedAll trees).find? condition = (trees.find? condition).map stripped := by
  induction trees with
  | nil => rfl
  | cons tree rest ih =>
    have hrest := ih fun other hmem => hskipped other (List.mem_cons_of_mem _ hmem)
    rw [strippedAll]
    by_cases h : tree.type ∈ skippedTypes
    · rw [if_pos h, hrest, List.find?_cons_of_neg]
      rw [hskipped tree List.mem_cons_self h]
      exact Bool.false_ne_true
    · rw [if_neg h, List.find?_cons, List.find?_cons, hstripped, hrest]
      split <;> rfl

/-- A field is filled by the same construct. -/
theorem childInField?_stripped (h : KeepsAside tree) (field : String) :
    (stripped tree).childInField? field = (tree.childInField? field).map stripped := by
  rw [Tree.childInField?, children_stripped, Tree.childInField?]
  refine find?_strippedAll (fun child => by rw [field_stripped]) fun child hmem hskipped => ?_
  rw [h.field child hmem hskipped]
  rfl

/-- The first construct of some types is the same, unless comments or tags are among the types. -/
theorem find?_namedChildren_stripped (tree : Tree) (condition : String → Bool)
    (h : ∀ type ∈ skippedTypes, condition type = false) :
    ((stripped tree).namedChildren.find? fun child => condition child.type) =
      (tree.namedChildren.find? fun child => condition child.type).map stripped := by
  rw [Tree.namedChildren, children_stripped, Tree.namedChildren, List.find?_filter,
    List.find?_filter]
  refine find?_strippedAll (fun child => by rw [named_stripped, type_stripped]) ?_
  intro child _ hskipped
  simp [h _ hskipped]

/-- Modifiers stay what they are. -/
theorem modifiersOf_stripped (tree : Tree) :
    modifiersOf source (stripped tree) = modifiersOf source tree := by
  have hnot : ∀ type ∈ skippedTypes, type.endsWith "_modifier" = false := by decide +kernel
  have hkept : ((strippedAll tree.children).filter isModifier) =
      (tree.children.filter isModifier).map stripped := by
    rw [strippedAll_eq_map, List.filter_map, List.filter_filter]
    congr 1
    refine List.filter_congr fun child _ => ?_
    rw [Function.comp_apply, isModifier, isModifier, type_stripped]
    by_cases hskipped : child.type ∈ skippedTypes
    · rw [hnot _ hskipped, Bool.false_and]
    · simp [hskipped]
  rw [modifiersOf, modifiersOf, type_stripped, children_stripped, hkept, List.map_map]
  simp only [Function.comp_def, stringOf_stripped]

/-! ## What a node is made of -/

/-- The operator is the same where no aside is taken for one. -/
theorem operatorOf?_stripped (h : KeepsAside tree) :
    operatorOf? (stripped tree) = operatorOf? tree := by
  rw [operatorOf?, operatorOf?, childInField?_stripped h, Option.map_map]
  simp only [Function.comp_def, type_stripped]

/-- The name in a field is the same where no aside stands in a field. -/
theorem nameInField?_stripped (h : KeepsAside tree) (field : String) (types : List String) :
    nameInField? source (stripped tree) field types = nameInField? source tree field types := by
  rw [nameInField?, nameInField?, childInField?_stripped h, Option.bind_map]
  simp only [Function.comp_def, literalName?_stripped]

/-- The owner of a call or an access is the same. -/
theorem ownerOf?_stripped (h : KeepsAside tree) :
    ownerOf? source (stripped tree) = ownerOf? source tree := by
  rw [ownerOf?, ownerOf?, type_stripped, nameInField?_stripped h]

/-- The name of a variable is the same. -/
theorem variableName?_stripped (tree : Tree) :
    variableName? source (stripped tree) = variableName? source tree := by
  rw [variableName?, variableName?, textOf_stripped,
    find?_namedChildren_stripped tree (· == "name") (by decide)]
  cases tree.namedChildren.find? fun child => child.type == "name" <;> simp

/-- The name of a node is the same. -/
theorem nameOf?_stripped (h : KeepsAside tree) :
    nameOf? source (stripped tree) = nameOf? source tree := by
  have hclass := find?_namedChildren_stripped tree nameTypes.contains (by decide)
  simp only [nameOf?, type_stripped, nameInField?_stripped h, hclass, variableName?_stripped,
    childInField?_stripped h, Option.bind_map, Option.map_map, Function.comp_def,
    literalName?_stripped, stringOf_stripped]

/-- The value of a literal is the same. -/
theorem literalValue_stripped (tree : Tree) :
    literalValue source (stripped tree) = literalValue source tree := by
  have hbody := find?_namedChildren_stripped tree bodyTypes.contains (by decide)
  rw [literalValue, literalValue, type_stripped, textOf_stripped, hbody]
  cases tree.namedChildren.find? fun child => bodyTypes.contains child.type <;> simp

mutual

/-- A literal with comments and tags inside keeps its embedded values. -/
theorem hasEmbedded_stripped (above : List Tree) (tree : Tree)
    (h : ∀ place ∈ placesIn above tree, KeepsAside place.item)
    (htype : tree.type ∈ embeddingTypes) :
    hasEmbedded (stripped tree) = hasEmbedded tree := by
  match tree with
  | .node type named field span children =>
    rw [placesIn, List.forall_mem_cons] at h
    rw [stripped, hasEmbedded, hasEmbedded]
    exact anyEmbedded_strippedAll _ children h.2 fun child hmem hskipped =>
      h.1.literal child hmem hskipped htype
termination_by structural tree

/-- Whether something is embedded among the parts of a text is the same. -/
theorem anyEmbedded_strippedAll (above trees : List Tree)
    (h : ∀ place ∈ placesInAll above trees, KeepsAside place.item)
    (hkept : ∀ tree ∈ trees, tree.type ∉ skippedTypes) :
    anyEmbedded (strippedAll trees) = anyEmbedded trees := by
  match trees with
  | [] => rfl
  | .node type named field span children :: rest =>
    rw [placesInAll, List.forall_mem_append] at h
    rw [List.forall_mem_cons] at hkept
    rw [strippedAll, if_neg hkept.1, stripped, anyEmbedded, anyEmbedded,
      anyEmbedded_strippedAll above rest h.2 hkept.2]
    congr 2
    split
    next hbody =>
      refine hasEmbedded_stripped above (.node type named field span children) h.1 ?_
      rw [Tree.type, eq_of_beq hbody]
      decide
    next => rfl
termination_by structural trees

end

variable (source)

/-- The node of a construct is made of the same, over the same nodes for what is inside. -/
theorem nodeOf_stripped (above : List Tree) (tree : Tree)
    (h : ∀ place ∈ placesIn above tree, KeepsAside place.item) (children : List Node) :
    nodeOf source (stripped tree) children = nodeOf source tree children := by
  have haside : KeepsAside tree := by
    refine h ⟨tree, above⟩ ?_
    rw [placesIn_eq]
    exact List.mem_cons_self
  have hinterpolated : isInterpolated (stripped tree) = isInterpolated tree := by
    have htypes : ∀ type ∈ interpolatingTypes, type ∈ embeddingTypes := by decide
    rw [isInterpolated, isInterpolated, type_stripped]
    by_cases htype : tree.type ∈ interpolatingTypes
    · rw [hasEmbedded_stripped above tree h (htypes _ htype)]
    · simp [htype]
  have hkind : kindOf (stripped tree) = kindOf tree := by
    rw [kindOf, kindOf, type_stripped, hinterpolated, operatorOf?_stripped haside]
  have hextent : extentOf (stripped tree) = extentOf tree := by
    rw [extentOf, extentOf, span_stripped]
  have hpayload : payloadOf source (stripped tree) = payloadOf source tree := by
    rw [payloadOf, payloadOf, nameOf?_stripped haside, ownerOf?_stripped haside,
      literalValue_stripped, operatorOf?_stripped haside, modifiersOf_stripped, type_stripped]
  rw [nodeOf, nodeOf, hkind, hextent, hpayload]

/-! ## Nodes -/

mutual

/-- A construct is read as it is without the comments and tags inside it. -/
theorem read_stripped (above : List Tree) (tree : Tree)
    (h : ∀ place ∈ placesIn above tree, KeepsAside place.item) :
    read source (stripped tree) = read source tree := by
  match tree with
  | .node type named field span children =>
    have hnode := nodeOf_stripped source above (.node type named field span children) h
      (readParts source children)
    rw [placesIn, List.forall_mem_cons] at h
    rw [stripped, read, read, readParts_strippedAll _ children h.2, ← hnode, stripped]
termination_by structural tree

/-- The parts that are read of a text are the same. -/
theorem readParts_strippedAll (above trees : List Tree)
    (h : ∀ place ∈ placesInAll above trees, KeepsAside place.item) :
    readParts source (strippedAll trees) = readParts source trees := by
  match trees with
  | [] => rfl
  | .node type named field span children :: rest =>
    rw [placesInAll, List.forall_mem_append] at h
    have hrest := readParts_strippedAll above rest h.2
    have htree := read_stripped above (.node type named field span children) h.1
    rw [placesIn, List.forall_mem_cons] at h
    have htexts := readTexts_strippedAll _ children h.1.2
    rw [strippedAll, readParts, Tree.type]
    by_cases hskipped : type ∈ skippedTypes
    · rw [if_pos hskipped, hrest]
      simp [hskipped]
    · rw [if_neg hskipped]
      rw [stripped] at htree ⊢
      rw [readParts, hrest, htexts, htree]
termination_by structural trees

/-- The texts that are read of these parts are the same. -/
theorem readTexts_strippedAll (above trees : List Tree)
    (h : ∀ place ∈ placesInAll above trees, KeepsAside place.item) :
    readTexts source (strippedAll trees) = readTexts source trees := by
  match trees with
  | [] => rfl
  | .node type named field span children :: rest =>
    rw [placesInAll, List.forall_mem_append] at h
    have hrest := readTexts_strippedAll above rest h.2
    have htree := read_stripped above (.node type named field span children) h.1
    rw [strippedAll, readTexts, Tree.type]
    by_cases hskipped : type ∈ skippedTypes
    · have hother : type ≠ "text" := by
        rintro rfl
        exact absurd hskipped (by decide)
      rw [if_pos hskipped, hrest]
      simp [hother]
    · rw [if_neg hskipped]
      rw [stripped] at htree ⊢
      rw [readTexts, hrest, htree]
termination_by structural trees

end

/-! ## Sources -/

/-- The nodes of a concrete tree are read off the children of its root. -/
theorem forestOf_eq_readParts (source : List UInt8) (root : Tree) :
    forestOf source root = readParts source root.children := by
  rw [forestOf_eq_map, readParts_eq_map]
  rfl

/-- **Comments and tags do not change what is found.** A source has the same nodes when the comments
and tags are taken out of its concrete tree, so that every query has the same answer. -/
theorem forestBy_stripped (source : List UInt8) (parse? parseStripped? : List UInt8 → Option Tree)
    (hstripped : parseStripped? source = (parse? source).map stripped)
    (haside : ∀ root, parse? source = some root →
      ∀ place ∈ placesBelow root, KeepsAside place.item) :
    forestBy parseStripped? source = forestBy parse? source ∧
      Subject.Agree (.forest (forestBy parseStripped? source)) (.forest (forestBy parse? source)) ∧
      (Subject.forest (forestBy parseStripped? source)).hasInterpolation =
        (Subject.forest (forestBy parse? source)).hasInterpolation := by
  have hforest : forestBy parseStripped? source = forestBy parse? source := by
    rw [forestBy, forestBy, hstripped]
    split
    next => rfl
    next =>
      cases hparse : parse? source with
      | none => rfl
      | some root =>
        have hparts := readParts_strippedAll source [] root.children (haside root hparse)
        simp only [Option.map_some, forestOf_eq_readParts, children_stripped, hparts]
  exact ⟨hforest, by rw [hforest]; exact .of_visit rfl, by rw [hforest]⟩

/-- Comments between all kinds of tokens, and a tag at the end. -/
def commentedSource : List UInt8 := Text.Utf8.encodeString
  "<?php final /* a */ class A \x7b\x7d new /* b */ B(\"$x\" /* c */ . f(/* d */)) ?>"

/-- Of six comments and tags the nodes show nothing, and what they carry is found behind them. -/
theorem forestBy_stripped_commentedSource :
    ∃ root, Grammar.parse? commentedSource = some root ∧
      (∀ place ∈ placesBelow root, KeepsAside place.item) ∧
      ((placesBelow root).countP fun place => place.item.type ∈ skippedTypes) = 6 ∧
      ((placesBelow (stripped root)).countP fun place => place.item.type ∈ skippedTypes) = 0 ∧
      (walk (forestOf commentedSource root)).filterMap Node.name = ["A", "B", "x", "f"] ∧
      forestBy (fun source => (Grammar.parse? source).map stripped) commentedSource =
        forestBy Grammar.parse? commentedSource := by
  have hroot : (Grammar.parse? commentedSource).map (fun root =>
      (decide (∀ place ∈ placesBelow root, KeepsAside place.item),
        ((placesBelow root).countP fun place => place.item.type ∈ skippedTypes),
        ((placesBelow (stripped root)).countP fun place => place.item.type ∈ skippedTypes),
        (walk (forestOf commentedSource root)).filterMap Node.name)) =
      some (true, 6, 0, ["A", "B", "x", "f"]) := by
    decide +kernel
  obtain ⟨root, hparse, hfacts⟩ := Option.map_eq_some_iff.mp hroot
  simp only [Prod.mk.injEq, decide_eq_true_eq] at hfacts
  obtain ⟨haside, hcount, hstripped, hnames⟩ := hfacts
  have hall : ∀ other, Grammar.parse? commentedSource = some other →
      ∀ place ∈ placesBelow other, KeepsAside place.item := by
    simpa only [hparse, Option.some_inj, forall_eq'] using haside
  obtain ⟨hforest, -⟩ := forestBy_stripped commentedSource Grammar.parse?
    (fun source => (Grammar.parse? source).map stripped) rfl hall
  exact ⟨root, hparse, haside, hcount, hstripped, hnames, hforest⟩

end PhpAudit.Syntax
