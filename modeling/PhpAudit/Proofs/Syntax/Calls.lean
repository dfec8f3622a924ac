import PhpAudit.Proofs.Syntax.Kinds
import PhpAudit.Syntax.Query

/-!
# Which calls a query finds

A query for calls sees nodes; what it is meant to find are constructs. Between the two lie the kind
that a construct's node takes, the fields in which a call keeps its name and its owner, and the
constructs that count as literal there. `calls_eq` says what this comes to: a query finds the nodes
of the retained calls that spell out what is asked for, in the order of the tree, and no others. A
call whose name or owner is not spelled out is found by no query, whatever it asks for.

Constructs that have no kind of their own keep the grammar's name for theirs. That name must not be
spelled like the kind of a call, which is an assumption on the grammar (`SpelledApart`).
-/

namespace PhpAudit.Syntax

open PhpAudit.Grammar (Tree)

variable {source : List UInt8} {root tree : Tree}

/-! ## Calls -/

/-- The kinds of calls, with the constructs that they are. -/
def callTypes : List (NodeKind × String) :=
  [(.methodCall, "member_call_expression"), (.staticCall, "scoped_call_expression"),
    (.functionCall, "function_call_expression")]

/-- A kind of call is given to one construct, which is neither a literal nor an operation. -/
theorem kindOfType?_eq_call {call : NodeKind × String} (hcall : call ∈ callTypes) {type : String} :
    kindOfType? type = some call.1 ↔ type = call.2 := by
  have hkinds : ∀ call ∈ callTypes, kindOfType? call.2 = some call.1 := by decide
  refine ⟨fun h => ?_, fun h => h ▸ hkinds call hcall⟩
  simp only [callTypes, List.mem_cons, List.not_mem_nil, or_false] at hcall
  unfold kindOfType? at h
  rcases hcall with rfl | rfl | rfl <;> split at h <;> first | rfl | cases h

/-- A node is a call of a kind when its construct is. -/
theorem isKind_read_iff {call : NodeKind × String} (hcall : call ∈ callTypes)
    (hapart : IsApart tree) :
    (read source tree).isKind call.1 = true ↔ tree.type = call.2 := by
  have hkinds : ∀ call ∈ callTypes, call.1 ∉ [.string, .interpolatedString, .concat, .binaryOp] := by
    decide
  rw [read_eq, isKind_nodeOf hapart, ownKind?_eq_some_of_notMem (hkinds call hcall),
    kindOfType?_eq_call hcall]

/-- A construct spells out a text in one of its fields: the first child there is one of the given
constructs, and covers that text, but for backslashes in front. -/
def SpellsIn (source : List UInt8) (tree : Tree) (field : String) (types : List String)
    (text : String) : Prop :=
  ∃ child ∈ tree.childInField? field, child.type ∈ types ∧
    String.ofList (withoutLeadingBackslashes (textOf source child)) = text

instance (source : List UInt8) (tree : Tree) (field : String) (types : List String)
    (text : String) : Decidable (SpellsIn source tree field types text) :=
  inferInstanceAs (Decidable (∃ child ∈ tree.childInField? field, _))

/-- The name in a field is the text that is spelled out there. -/
theorem nameInField?_eq_some {field : String} {types : List String} {text : String} :
    nameInField? source tree field types = some text ↔ SpellsIn source tree field types text := by
  rw [nameInField?, Option.bind_eq_some_iff]
  refine exists_congr fun child => and_congr_right fun _ => ?_
  rw [literalName?]
  split
  next htype => simpa using fun _ => by simpa using htype
  next htype => simpa using fun h => absurd (by simpa using h) htype

/-- A call of a method on a value, by its name. -/
def CallsMethod (source : List UInt8) (method : String) (tree : Tree) : Prop :=
  tree.type = "member_call_expression" ∧ SpellsIn source tree "name" ["name"] method

/-- A call of a method on a type, by the names of both. -/
def CallsStatic (source : List UInt8) (type method : String) (tree : Tree) : Prop :=
  tree.type = "scoped_call_expression" ∧ SpellsIn source tree "name" ["name"] method ∧
    SpellsIn source tree "scope" ["name", "qualified_name", "relative_scope"] type

/-- A call of a function, by its name. -/
def CallsFunction (source : List UInt8) (function : String) (tree : Tree) : Prop :=
  tree.type = "function_call_expression" ∧
    SpellsIn source tree "function" ["name", "qualified_name"] function

instance (source : List UInt8) (method : String) : DecidablePred (CallsMethod source method) :=
  fun tree => inferInstanceAs (Decidable (tree.type = _ ∧ SpellsIn source tree "name" _ method))

instance (source : List UInt8) (type method : String) :
    DecidablePred (CallsStatic source type method) :=
  fun tree => inferInstanceAs (Decidable (tree.type = _ ∧ SpellsIn source tree "name" _ method ∧
    SpellsIn source tree "scope" _ type))

instance (source : List UInt8) (function : String) :
    DecidablePred (CallsFunction source function) :=
  fun tree => inferInstanceAs (Decidable (tree.type = _ ∧
    SpellsIn source tree "function" _ function))

/-! ## Nodes of calls -/

theorem name_read (tree : Tree) : (read source tree).name = nameOf? source tree := by
  rw [read_eq]
  rfl

theorem owner_read (tree : Tree) : (read source tree).owner = ownerOf? source tree := by
  rw [read_eq]
  rfl

/-- A node is a call of a method when its construct is. -/
theorem isMethodCall_read (hapart : IsApart tree) (method : String) :
    ((read source tree).isKind .methodCall && (read source tree).name == some method) = true ↔
      CallsMethod source method tree := by
  have hcall : (NodeKind.methodCall, "member_call_expression") ∈ callTypes := by decide
  rw [Bool.and_eq_true, isKind_read_iff hcall hapart, beq_iff_eq, name_read, CallsMethod,
    ← nameInField?_eq_some]
  refine and_congr_right fun htype => ?_
  rw [nameOf?, htype]
  rfl

/-- A node is a call of a method on a type when its construct is. -/
theorem isStaticCall_read (hapart : IsApart tree) (type method : String) :
    ((read source tree).isKind .staticCall && (read source tree).name == some method &&
        (read source tree).owner == some type) = true ↔ CallsStatic source type method tree := by
  have hcall : (NodeKind.staticCall, "scoped_call_expression") ∈ callTypes := by decide
  rw [Bool.and_eq_true, Bool.and_eq_true, isKind_read_iff hcall hapart, beq_iff_eq, beq_iff_eq,
    name_read, owner_read, CallsStatic, ← nameInField?_eq_some, ← nameInField?_eq_some, and_assoc]
  refine and_congr_right fun htype => ?_
  rw [nameOf?, ownerOf?, htype]
  rfl

/-- A node is a call of a function when its construct is. -/
theorem isFunctionCall_read (hapart : IsApart tree) (function : String) :
    ((read source tree).isKind .functionCall && (read source tree).name == some function) = true ↔
      CallsFunction source function tree := by
  have hcall : (NodeKind.functionCall, "function_call_expression") ∈ callTypes := by decide
  rw [Bool.and_eq_true, isKind_read_iff hcall hapart, beq_iff_eq, name_read, CallsFunction,
    ← nameInField?_eq_some]
  refine and_congr_right fun htype => ?_
  rw [nameOf?, htype]
  rfl

/-! ## Queries for calls -/

/-- A node that some query for calls finds, in some subject. -/
def IsFound (node : Node) : Prop :=
  ∃ subject : Subject,
    (∃ method, node ∈ subject.methodCalls method) ∨
    (∃ type method, node ∈ subject.staticCalls type method) ∨
    ∃ function, node ∈ subject.functionCalls function

/-- A construct has one of the given constructs in a field: the first child there is one. -/
def HasIn (tree : Tree) (field : String) (types : List String) : Prop :=
  ∃ child ∈ tree.childInField? field, child.type ∈ types

/-- A text is spelled out in a field only by a construct that counts as literal there. -/
theorem SpellsIn.hasIn {field text : String} {types : List String}
    (h : SpellsIn source tree field types text) : HasIn tree field types := by
  obtain ⟨child, hchild, htype, -⟩ := h
  exact ⟨child, hchild, htype⟩

/-- A call whose name or owner is no literal name, or one that may not take place. -/
def IsUnspelled (tree : Tree) : Prop :=
  tree.type = "nullsafe_member_call_expression" ∨
  (tree.type = "member_call_expression" ∧ ¬ HasIn tree "name" ["name"]) ∨
  (tree.type = "scoped_call_expression" ∧ ¬ (HasIn tree "name" ["name"] ∧
    HasIn tree "scope" ["name", "qualified_name", "relative_scope"])) ∨
  (tree.type = "function_call_expression" ∧
    ¬ HasIn tree "function" ["name", "qualified_name"])

/-- No query finds a call that is not spelled out. -/
theorem not_isFound_of_isUnspelled (hapart : IsApart tree) (h : IsUnspelled tree) :
    ¬ IsFound (read source tree) := by
  rintro ⟨subject, ⟨method, hmem⟩ | ⟨type, method, hmem⟩ | ⟨function, hmem⟩⟩
  · obtain ⟨htype, hname⟩ := (isMethodCall_read hapart method).mp (List.mem_filter.mp hmem).2
    simp [IsUnspelled, htype, hname.hasIn] at h
  · obtain ⟨htype, hname, howner⟩ :=
      (isStaticCall_read hapart type method).mp (List.mem_filter.mp hmem).2
    simp [IsUnspelled, htype, hname.hasIn, howner.hasIn] at h
  · obtain ⟨htype, hname⟩ := (isFunctionCall_read hapart function).mp (List.mem_filter.mp hmem).2
    simp [IsUnspelled, htype, hname.hasIn] at h

/-- The nodes of the retained constructs that satisfy a condition, in the order of the tree. -/
def nodesWhere (source : List UInt8) (root : Tree) (condition : Tree → Prop)
    [DecidablePred condition] : List Node :=
  ((retainedBelow root).filter fun place => condition place.item).map fun place =>
    read source place.item

/-- A query finds the nodes of the constructs whose nodes satisfy its condition. -/
theorem findAll_eq_nodesWhere {forest : Forest} (hforest : Mirrors source root forest)
    {selects : Node → Bool} {condition : Tree → Prop} [DecidablePred condition]
    (h : ∀ place ∈ retainedBelow root,
      selects (read source place.item) = true ↔ condition place.item) :
    (Subject.forest forest).findAll selects = nodesWhere source root condition := by
  rw [Subject.findAll, Subject.visit, hforest.walk_eq, List.filter_map, nodesWhere]
  congr 1
  refine List.filter_congr fun place hplace => ?_
  rw [Bool.eq_iff_iff, decide_eq_true_iff]
  exact h place hplace

/-- **Queries find the calls that spell out what is asked for.** The answers are the nodes of the
retained calls by that name, and by that owner, in the order of the tree. A retained call that is
not spelled out is found by no query. -/
theorem calls_eq (source : List UInt8) (parse? : List UInt8 → Option Tree) (root : Tree)
    (hparse : parse? source = some root)
    (hblank : isBlankSource source = true → root.namedChildren = [])
    (hapart : SpelledApart root) :
    (∀ method, (Subject.forest (forestBy parse? source)).methodCalls method =
        nodesWhere source root (CallsMethod source method)) ∧
      (∀ type method, (Subject.forest (forestBy parse? source)).staticCalls type method =
        nodesWhere source root (CallsStatic source type method)) ∧
      (∀ function, (Subject.forest (forestBy parse? source)).functionCalls function =
        nodesWhere source root (CallsFunction source function)) ∧
      ∀ place ∈ retainedBelow root,
        IsUnspelled place.item → ¬ IsFound (read source place.item) := by
  have hmirrors : Mirrors source root (forestBy parse? source) := by
    rw [forestBy_eq_forestOf source hparse hblank]
    exact forestOf_mirrors source root
  refine ⟨fun method => ?_, fun type method => ?_, fun function => ?_, fun place hplace => ?_⟩
  · exact findAll_eq_nodesWhere hmirrors fun place hplace =>
      isMethodCall_read (hapart.isApart hplace) method
  · exact findAll_eq_nodesWhere hmirrors fun place hplace =>
      isStaticCall_read (hapart.isApart hplace) type method
  · exact findAll_eq_nodesWhere hmirrors fun place hplace =>
      isFunctionCall_read (hapart.isApart hplace) function
  · exact not_isFound_of_isUnspelled (hapart.isApart hplace)

/-- A method is called with the answer of a call on a type, which takes those of two functions, one
of them known only when the program runs. -/
def nestedCalls : List UInt8 := Text.Utf8.encodeString "<?php $a->m(\\N\\C::s(f(), $x()));"

/-- Each literal selector finds its call, and the call of `$x` is found by none. -/
theorem calls_eq_nestedCalls :
    ∃ root, Grammar.parse? nestedCalls = some root ∧ isBlankSource nestedCalls = false ∧
      SpelledApart root ∧
      (Subject.forest (forestBy Grammar.parse? nestedCalls)).methodCalls "m" =
        nodesWhere nestedCalls root (CallsMethod nestedCalls "m") ∧
      (Subject.forest (forestBy Grammar.parse? nestedCalls)).staticCalls "N\\C" "s" =
        nodesWhere nestedCalls root (CallsStatic nestedCalls "N\\C" "s") ∧
      (Subject.forest (forestBy Grammar.parse? nestedCalls)).functionCalls "f" =
        nodesWhere nestedCalls root (CallsFunction nestedCalls "f") ∧
      (nodesWhere nestedCalls root (CallsMethod nestedCalls "m")).map Node.startColumn = [7] ∧
      (nodesWhere nestedCalls root (CallsStatic nestedCalls "N\\C" "s")).map Node.startColumn =
        [13] ∧
      (nodesWhere nestedCalls root (CallsFunction nestedCalls "f")).map Node.startColumn =
        [21] := by
  have hsource : isBlankSource nestedCalls = false := by decide +kernel
  have hcalls : (Grammar.parse? nestedCalls).map (fun root => (decide (SpelledApart root),
      (nodesWhere nestedCalls root (CallsMethod nestedCalls "m")).map Node.startColumn,
      (nodesWhere nestedCalls root (CallsStatic nestedCalls "N\\C" "s")).map Node.startColumn,
      (nodesWhere nestedCalls root (CallsFunction nestedCalls "f")).map Node.startColumn)) =
        some (true, [7], [13], [21]) := by
    decide +kernel
  obtain ⟨root, hparse, hroot⟩ := Option.map_eq_some_iff.mp hcalls
  simp only [Prod.mk.injEq, decide_eq_true_eq] at hroot
  obtain ⟨hapart, hcolumns⟩ := hroot
  have hblank (h : isBlankSource nestedCalls = true) : root.namedChildren = [] := by
    rw [hsource] at h
    cases h
  obtain ⟨hmethods, hstatics, hfunctions, -⟩ :=
    calls_eq nestedCalls Grammar.parse? root hparse hblank hapart
  exact ⟨root, hparse, hsource, hapart, hmethods _, hstatics _ _, hfunctions _, hcolumns⟩

end PhpAudit.Syntax
