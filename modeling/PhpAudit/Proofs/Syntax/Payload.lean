import PhpAudit.Proofs.Syntax.Kinds

/-!
# What nodes carry

The kind of a node and what the node carries are read off its construct apart from each other: the
kind by one chain of cases on the grammar's name for the construct, and every part of the payload by
a chain of its own. Queries rely on the two to agree, since they ask for a kind and then for what a
node of that kind carries. `Disciplined` says what agreement means, and `disciplined_of_mem_walk`
that every node of every source keeps to it.

The discipline of one node needs nothing but its construct (`disciplined_nodeOf`), and every node of
a walk is the node of a construct. Constructs without a kind of their own keep the grammar's name;
they are the reason for the assumption that such names are not spelled like kinds.
-/

namespace PhpAudit.Syntax

open PhpAudit.Grammar (Tree)

variable {source : List UInt8} {tree : Tree}

/-! ## The discipline -/

/-- The kinds of calls, and of the making of objects: what they name is spelled out or absent. -/
def NodeKind.calls : List NodeKind :=
  [.methodCall, .nullsafeMethodCall, .staticCall, .functionCall, .new]

/-- The kinds of declarations that can have modifiers. -/
def NodeKind.modified : List NodeKind :=
  [.classType, .interface, .trait, .enum, .method, .function, .namespace]

/-- The kinds of nodes that can have a name. -/
def NodeKind.named : List NodeKind := .variable :: modified ++ calls

/-- A node is of one of some kinds. -/
def Node.IsOneOf (node : Node) (kinds : List NodeKind) : Prop :=
  ∃ kind ∈ kinds, node.isKind kind = true

/-- A name that does not start with a backslash. -/
def IsUnrooted (name : String) : Prop := name.toList.head? ≠ some '\\'

/-- What a node carries is what its kind calls for. -/
structure Disciplined (node : Node) : Prop where
  value : node.value.isSome = true ↔ node.IsOneOf [.string, .interpolatedString]
  operator : node.operator.isSome = true → node.IsOneOf [.concat, .binaryOp]
  concat : node.isKind .concat = true ↔ node.operator = some "."
  owner : node.owner.isSome = true → node.isKind .staticCall = true
  name : node.name.isSome = true → node.IsOneOf NodeKind.named
  modifiers : node.modifiers ≠ [] → node.IsOneOf NodeKind.modified
  callName : node.IsOneOf NodeKind.calls → ∀ name ∈ node.name, IsUnrooted name
  callOwner : ∀ owner ∈ node.owner, IsUnrooted owner

/-! ## Names -/

/-- The constructs whose name is spelled out as a literal or absent. -/
def literallyNamedTypes : List String :=
  ["member_call_expression", "nullsafe_member_call_expression", "scoped_call_expression",
    "function_call_expression", "object_creation_expression"]

/-- A literal name has no leading backslash. -/
theorem isUnrooted_of_literalName? {types : List String} {name : String}
    (h : literalName? source types tree = some name) : IsUnrooted name := by
  rw [literalName?, Option.ite_none_right_eq_some, Option.some_inj] at h
  obtain ⟨-, rfl⟩ := h
  rw [IsUnrooted, String.toList_ofList]
  intro hhead
  have hkept := List.head?_dropWhile_not (· == '\\') (textOf source tree)
  rw [← withoutLeadingBackslashes, hhead] at hkept
  exact absurd hkept (by decide)

/-- A name in a field has no leading backslash. -/
theorem isUnrooted_of_nameInField? {field : String} {types : List String} {name : String}
    (h : nameInField? source tree field types = some name) : IsUnrooted name := by
  obtain ⟨child, -, hname⟩ := Option.bind_eq_some_iff.mp h
  exact isUnrooted_of_literalName? hname

/-- A name is that of a call and spelled out, or that of a variable or a declaration. -/
theorem nameOf?_cases {name : String} (h : nameOf? source tree = some name) :
    (tree.type ∈ literallyNamedTypes ∧ IsUnrooted name) ∨ tree.type = "variable_name" ∨
      tree.type ∈ declarationTypes := by
  unfold nameOf? at h
  simp only [Bool.or_eq_true, beq_iff_eq, List.contains_iff_mem] at h
  split_ifs at h with hmember hfunction hobject hvariable hdeclaration
  · refine .inl ⟨?_, isUnrooted_of_nameInField? h⟩
    rcases hmember with (htype | htype) | htype <;> rw [htype] <;> decide
  · exact .inl ⟨by rw [hfunction]; decide, isUnrooted_of_nameInField? h⟩
  · obtain ⟨child, -, hname⟩ := Option.bind_eq_some_iff.mp h
    exact .inl ⟨by rw [hobject]; decide, isUnrooted_of_literalName? hname⟩
  · exact .inr (.inl hvariable)
  · exact .inr (.inr hdeclaration)

/-- Constructs of some types are of some kinds if their types say so. -/
theorem ownKind?_of_mem {types : List String} {kinds : List NodeKind}
    (hkinds : ∀ type ∈ types, ∃ kind ∈ kinds, kindOfType? type = some kind)
    (h : tree.type ∈ types) : ∃ kind ∈ kinds, ownKind? tree = some kind := by
  obtain ⟨kind, hmem, hkind⟩ := hkinds _ h
  exact ⟨kind, hmem, ownKind?_of_kindOfType? hkind⟩

/-- What is named literally is read as a call or a creation. -/
theorem ownKind?_of_literallyNamed (h : tree.type ∈ literallyNamedTypes) :
    ∃ kind ∈ NodeKind.calls, ownKind? tree = some kind :=
  ownKind?_of_mem (by decide) h

/-- A declaration is read as one of the kinds that carry modifiers. -/
theorem ownKind?_of_declaration (h : tree.type ∈ declarationTypes) :
    ∃ kind ∈ NodeKind.modified, ownKind? tree = some kind :=
  ownKind?_of_mem (by decide) h

theorem ownKind?_of_variable (h : tree.type = "variable_name") :
    ownKind? tree = some .variable :=
  ownKind?_of_kindOfType? (by rw [h]; rfl)

/-- A tree that has a name is read as one of the named kinds. -/
theorem ownKind?_of_nameOf? {name : String} (h : nameOf? source tree = some name) :
    ∃ kind ∈ NodeKind.named, ownKind? tree = some kind := by
  rcases nameOf?_cases h with ⟨hcall, -⟩ | hvariable | hdeclaration
  · obtain ⟨kind, hmem, hkind⟩ := ownKind?_of_literallyNamed hcall
    exact ⟨kind, List.mem_append_right _ hmem, hkind⟩
  · exact ⟨.variable, by decide, ownKind?_of_variable hvariable⟩
  · obtain ⟨kind, hmem, hkind⟩ := ownKind?_of_declaration hdeclaration
    exact ⟨kind, List.mem_append_left _ (List.mem_cons_of_mem _ hmem), hkind⟩

/-- The name of a call is spelled out. -/
theorem isUnrooted_of_nameOf? {kind : NodeKind} (hkind : ownKind? tree = some kind)
    (hcall : kind ∈ NodeKind.calls) {name : String} (h : nameOf? source tree = some name) :
    IsUnrooted name := by
  have hapart : ∀ kind ∈ NodeKind.variable :: NodeKind.modified, kind ∉ NodeKind.calls := by decide
  have hnot {other : NodeKind} (hother : ownKind? tree = some other)
      (hmem : other ∈ NodeKind.variable :: NodeKind.modified) : False := by
    rw [hkind, Option.some_inj] at hother
    exact hapart other hmem (hother ▸ hcall)
  rcases nameOf?_cases h with ⟨-, hname⟩ | hvariable | hdeclaration
  · exact hname
  · exact (hnot (ownKind?_of_variable hvariable) List.mem_cons_self).elim
  · obtain ⟨other, hmem, hother⟩ := ownKind?_of_declaration hdeclaration
    exact (hnot hother (List.mem_cons_of_mem _ hmem)).elim

/-! ## Nodes -/

/-- Which kinds a node has is decided by its type alone. -/
theorem isOneOf_nodeOf (hapart : IsApart tree) (children : List Node) (kinds : List NodeKind) :
    (nodeOf source tree children).IsOneOf kinds ↔ ∃ kind ∈ kinds, ownKind? tree = some kind :=
  exists_congr fun kind => and_congr_right fun _ => isKind_nodeOf hapart children kind

/-- Only a binary expression carries an operator. -/
theorem operator_nodeOf (source : List UInt8) (tree : Tree) (children : List Node) :
    (nodeOf source tree children).operator =
      if tree.type = "binary_expression" then operatorOf? tree else none := by
  simp only [nodeOf, Node.operator, Node.payload, payloadOf, beq_iff_eq]

/-- An owner is the scope of a scoped call. -/
theorem ownerOf?_eq_some {owner : String} (h : ownerOf? source tree = some owner) :
    tree.type = "scoped_call_expression" ∧
      nameInField? source tree "scope" scopeTypes = some owner := by
  rw [ownerOf?, Option.ite_none_right_eq_some] at h
  exact ⟨eq_of_beq h.1, h.2⟩

/-- The node of a construct keeps to the discipline, whatever stands inside. -/
theorem disciplined_nodeOf (source : List UInt8) (hapart : IsApart tree) (children : List Node) :
    Disciplined (nodeOf source tree children) where
  value := by
    rw [isOneOf_nodeOf hapart, ← mem_stringTypes_iff]
    simp [nodeOf, Node.value, Node.payload, payloadOf]
  operator := by
    rw [isOneOf_nodeOf hapart, operator_nodeOf]
    intro h
    obtain ⟨operator, hoperator⟩ := Option.isSome_iff_exists.mp h
    exact ownKind?_of_operation (Option.ite_none_right_eq_some.mp hoperator).1
  concat := by
    rw [isKind_nodeOf hapart, ownKind?_eq_concat_iff, operator_nodeOf,
      Option.ite_none_right_eq_some]
  owner := by
    rw [isKind_nodeOf hapart]
    intro h
    obtain ⟨owner, howner⟩ := Option.isSome_iff_exists.mp h
    obtain ⟨hcall, -⟩ := ownerOf?_eq_some howner
    exact ownKind?_of_kindOfType? (by rw [hcall]; rfl)
  name := by
    rw [isOneOf_nodeOf hapart]
    intro h
    obtain ⟨name, hname⟩ := Option.isSome_iff_exists.mp h
    exact ownKind?_of_nameOf? hname
  modifiers := by
    rw [isOneOf_nodeOf hapart]
    intro h
    refine ownKind?_of_declaration ?_
    by_contra hother
    exact h (if_neg (by simpa using hother))
  callName := by
    rw [isOneOf_nodeOf hapart]
    rintro ⟨kind, hcall, hkind⟩ name hname
    exact isUnrooted_of_nameOf? hkind hcall hname
  callOwner := by
    intro owner howner
    obtain ⟨-, hname⟩ := ownerOf?_eq_some howner
    exact isUnrooted_of_nameInField? hname

/-! ## Sources -/

/-- Of the constructs with a kind of their own, two are spelled like one. -/
theorem isApart_of_spelled (h : tree.type ∈ NodeKind.all.map NodeKind.text →
    tree.type = "string" ∨ tree.type = "arrow_function") : IsApart tree := by
  have hown : ∀ type ∈ ["string", "arrow_function"], HasOwnKind type := by decide
  by_cases hspelled : tree.type ∈ NodeKind.all.map NodeKind.text
  · refine .inl (hown _ ?_)
    rcases h hspelled with htype | htype <;> rw [htype] <;> decide
  · exact .inr hspelled

/-- **Every node carries what its kind calls for.** This holds for all nodes of all sources, as long
as the grammar spells no construct like a kind but string literals and arrow functions. -/
theorem disciplined_of_mem_walk (parse? : List UInt8 → Option Tree) (source : List UInt8)
    (hspelled : ∀ root, parse? source = some root →
      ∀ place ∈ placesBelow root, place.item.named = true →
        place.item.type ∈ NodeKind.all.map NodeKind.text →
          place.item.type = "string" ∨ place.item.type = "arrow_function") :
    ∀ node ∈ walk (forestBy parse? source), Disciplined node := by
  intro node hnode
  obtain ⟨root, hparse, place, hplace, rfl⟩ := exists_retained_of_mem_walk source hnode
  obtain ⟨hmem, hretained⟩ := List.mem_filter.mp hplace
  have hnamed := (of_decide_eq_true hretained).1.named _ List.mem_cons_self
  rw [read_eq]
  exact disciplined_nodeOf source (isApart_of_spelled (hspelled root hparse place hmem hnamed)) _

/-- A declaration with a modifier, and an object made with a concatenation and a call. The class of
the object and the type of the call are written with a backslash in front. -/
def rootedNames : List UInt8 := Text.Utf8.encodeString
  "<?php final class A \x7b\x7d new \\B('x' . \"$y\", \\C::d());"

/-- The names that the nodes carry are those of the declaration, the object, the variable and the
call, and no others. -/
theorem disciplined_of_mem_walk_rootedNames :
    ∃ root, Grammar.parse? rootedNames = some root ∧
      (∀ place ∈ placesBelow root, place.item.named = true →
        place.item.type ∈ NodeKind.all.map NodeKind.text →
          place.item.type = "string" ∨ place.item.type = "arrow_function") ∧
      (walk (forestBy Grammar.parse? rootedNames)).filterMap Node.name = ["A", "B", "y", "d"] ∧
      (walk (forestBy Grammar.parse? rootedNames)).filterMap Node.owner = ["C"] ∧
      ∀ node ∈ walk (forestBy Grammar.parse? rootedNames), Disciplined node := by
  have hsource : isBlankSource rootedNames = false := by decide +kernel
  have hroot : (Grammar.parse? rootedNames).map (fun root =>
      (decide (∀ place ∈ placesBelow root, place.item.named = true →
          place.item.type ∈ NodeKind.all.map NodeKind.text →
            place.item.type = "string" ∨ place.item.type = "arrow_function"),
        (walk (forestOf rootedNames root)).filterMap Node.name,
        (walk (forestOf rootedNames root)).filterMap Node.owner)) =
      some (true, ["A", "B", "y", "d"], ["C"]) := by
    decide +kernel
  obtain ⟨root, hparse, hfacts⟩ := Option.map_eq_some_iff.mp hroot
  simp only [Prod.mk.injEq, decide_eq_true_eq] at hfacts
  obtain ⟨hspelled, hnames, howners⟩ := hfacts
  have hforest : forestBy Grammar.parse? rootedNames = forestOf rootedNames root :=
    forestBy_eq_forestOf rootedNames hparse fun h => by rw [hsource] at h; cases h
  rw [hforest]
  refine ⟨root, hparse, hspelled, hnames, howners, ?_⟩
  rw [← hforest]
  refine disciplined_of_mem_walk Grammar.parse? rootedNames ?_
  simpa only [hparse, Option.some_inj, forall_eq'] using hspelled

end PhpAudit.Syntax
