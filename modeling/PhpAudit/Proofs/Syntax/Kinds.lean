import PhpAudit.Proofs.Syntax.Retained

/-!
# Kinds of nodes

A node is asked for by its kind, and its kind is a text. Most constructs have a kind of their own
(`ownKind?`); the others keep the grammar's name for theirs. As long as such a name is not spelled
like a kind, which is an assumption on the grammar (`IsApart`, `SpelledApart`), a node is of a kind
exactly when its construct has it (`isKind_nodeOf`).
-/

namespace PhpAudit.Syntax

open PhpAudit.Grammar (Tree)

variable {source : List UInt8} {tree : Tree}

/-! ## Texts of kinds -/

/-- A kind is told by its text. -/
theorem NodeKind.ofText?_text (kind : NodeKind) : NodeKind.ofText? kind.text = some kind := by
  cases kind <;> rfl

/-- Different kinds have different texts. -/
theorem NodeKind.text_inj {a b : NodeKind} : a.text = b.text ↔ a = b := by
  refine ⟨fun h => ?_, congrArg _⟩
  have ha := NodeKind.ofText?_text a
  rw [h, NodeKind.ofText?_text] at ha
  exact (Option.some.inj ha).symm

theorem NodeKind.mem_all (kind : NodeKind) : kind ∈ NodeKind.all :=
  List.mem_of_find?_eq_some (NodeKind.ofText?_text kind)

/-! ## Names apart from kinds -/

/-- The grammar's names of the constructs that have a kind of their own. -/
def HasOwnKind (type : String) : Prop :=
  type ∈ stringTypes ∨ type = "binary_expression" ∨ (kindOfType? type).isSome = true

/-- A construct that has a kind of its own, or at least is not spelled like one. -/
def IsApart (tree : Tree) : Prop :=
  HasOwnKind tree.type ∨ tree.type ∉ NodeKind.all.map NodeKind.text

/-- No construct of a tree is spelled like a kind that it does not have. -/
def SpelledApart (root : Tree) : Prop :=
  ∀ place ∈ placesBelow root, place.item.named = true → IsApart place.item

instance : DecidablePred HasOwnKind := fun type =>
  inferInstanceAs (Decidable (type ∈ stringTypes ∨ type = "binary_expression" ∨ _))

instance : DecidablePred IsApart := fun tree =>
  inferInstanceAs (Decidable (HasOwnKind tree.type ∨ tree.type ∉ _))

instance : DecidablePred SpelledApart := fun root =>
  inferInstanceAs (Decidable (∀ place ∈ placesBelow root, _ → _))

/-- A retained construct is spelled apart if its tree is. -/
theorem SpelledApart.isApart {root : Tree} (h : SpelledApart root) {place : Place Tree}
    (hplace : place ∈ retainedBelow root) : IsApart place.item := by
  obtain ⟨hmem, hretained⟩ := List.mem_filter.mp hplace
  exact h place hmem ((of_decide_eq_true hretained).1.named _ List.mem_cons_self)

/-! ## Kinds of constructs -/

/-- The kind that a construct has of its own. -/
def ownKind? (tree : Tree) : Option NodeKind :=
  if tree.type ∈ stringTypes then
    some (if isInterpolated tree then .interpolatedString else .string)
  else if tree.type = "binary_expression" then
    some (if operatorOf? tree = some "." then .concat else .binaryOp)
  else kindOfType? tree.type

/-- A construct without a kind of its own keeps the grammar's name. -/
theorem kindOf_eq_elim (tree : Tree) :
    kindOf tree = (ownKind? tree).elim tree.type NodeKind.text := by
  unfold kindOf ownKind?
  simp only [List.contains_iff_mem, beq_iff_eq]
  split_ifs <;> try rfl
  cases kindOfType? tree.type <;> rfl

/-- If the grammar's names are not spelled like kinds, the kind of a node is its construct's own. -/
theorem kindOf_eq_text_iff (hapart : IsApart tree) {kind : NodeKind} :
    kindOf tree = kind.text ↔ ownKind? tree = some kind := by
  rw [kindOf_eq_elim]
  cases hown : ownKind? tree with
  | some own => rw [Option.elim_some, NodeKind.text_inj, Option.some_inj]
  | none =>
    unfold ownKind? at hown
    split_ifs at hown with hliteral hoperation
    rw [Option.elim_none]
    refine iff_of_false ?_ nofun
    rcases hapart with (h | h | h) | h
    · exact absurd h hliteral
    · exact absurd h hoperation
    · rw [hown] at h
      cases h
    · exact fun htext => h (htext ▸ List.mem_map_of_mem kind.mem_all)

/-- Literals and operations do not get their kind by their name alone. -/
theorem kindOfType?_eq_some {type : String} {kind : NodeKind} (h : kindOfType? type = some kind) :
    type ∉ stringTypes ∧ type ≠ "binary_expression" ∧
      kind ∉ [.string, .interpolatedString, .concat, .binaryOp] := by
  unfold kindOfType? at h
  split at h <;> first | cases h; decide | cases h

theorem ownKind?_of_kindOfType? {kind : NodeKind} (h : kindOfType? tree.type = some kind) :
    ownKind? tree = some kind := by
  obtain ⟨hliteral, hoperation, -⟩ := kindOfType?_eq_some h
  rw [ownKind?, if_neg hliteral, if_neg hoperation, h]

/-- A kind of its own comes from being a literal, from being an operation, or from the name. -/
theorem ownKind?_eq_some {kind : NodeKind} (h : ownKind? tree = some kind) :
    (tree.type ∈ stringTypes ∧ kind ∈ [.string, .interpolatedString]) ∨
      (tree.type = "binary_expression" ∧
        kind = if operatorOf? tree = some "." then .concat else .binaryOp) ∨
      kindOfType? tree.type = some kind := by
  unfold ownKind? at h
  by_cases hliteral : tree.type ∈ stringTypes
  · rw [if_pos hliteral, Option.some_inj] at h
    refine .inl ⟨hliteral, ?_⟩
    rw [← h]
    split_ifs <;> decide
  · rw [if_neg hliteral] at h
    by_cases hoperation : tree.type = "binary_expression"
    · rw [if_pos hoperation, Option.some_inj] at h
      exact .inr (.inl ⟨hoperation, h.symm⟩)
    · rw [if_neg hoperation] at h
      exact .inr (.inr h)

/-- The kinds of neither literals nor operations come from the name alone. -/
theorem ownKind?_eq_some_of_notMem {kind : NodeKind}
    (hkind : kind ∉ [.string, .interpolatedString, .concat, .binaryOp]) :
    ownKind? tree = some kind ↔ kindOfType? tree.type = some kind := by
  simp only [List.mem_cons, List.not_mem_nil, or_false, not_or] at hkind
  obtain ⟨hstring, hinterpolated, hconcat, hbinary⟩ := hkind
  refine ⟨fun hown => ?_, ownKind?_of_kindOfType?⟩
  rcases ownKind?_eq_some hown with ⟨-, hliteral⟩ | ⟨-, hoperation⟩ | hmapped
  · simp [hstring, hinterpolated] at hliteral
  · split_ifs at hoperation
    · exact absurd hoperation hconcat
    · exact absurd hoperation hbinary
  · exact hmapped

/-- String literals are the constructs of the two kinds of strings. -/
theorem mem_stringTypes_iff :
    tree.type ∈ stringTypes ↔
      ∃ kind ∈ [.string, .interpolatedString], ownKind? tree = some kind := by
  constructor
  · intro h
    rw [ownKind?, if_pos h]
    split_ifs <;> simp
  · rintro ⟨kind, hkind, hown⟩
    rcases ownKind?_eq_some hown with ⟨hliteral, -⟩ | ⟨-, rfl⟩ | hmapped
    · exact hliteral
    · split_ifs at hkind <;> exact absurd hkind (by decide)
    · have hmem : ∀ kind ∈ [NodeKind.string, .interpolatedString],
          kind ∈ [.string, .interpolatedString, .concat, .binaryOp] := by decide
      exact absurd (hmem kind hkind) (kindOfType?_eq_some hmapped).2.2

/-- Concatenations are the operations with a dot between their operands. -/
theorem ownKind?_eq_concat_iff :
    ownKind? tree = some .concat ↔
      tree.type = "binary_expression" ∧ operatorOf? tree = some "." := by
  constructor
  · intro hown
    rcases ownKind?_eq_some hown with ⟨-, hkind⟩ | ⟨hoperation, hkind⟩ | hmapped
    · exact absurd hkind (by decide)
    · refine ⟨hoperation, ?_⟩
      by_contra hdot
      rw [if_neg hdot] at hkind
      cases hkind
    · exact absurd (by decide) (kindOfType?_eq_some hmapped).2.2
  · rintro ⟨hoperation, hdot⟩
    have hliteral : tree.type ∉ stringTypes := by
      rw [hoperation]
      decide
    rw [ownKind?, if_neg hliteral, if_pos hoperation, if_pos hdot]

theorem ownKind?_of_operation (h : tree.type = "binary_expression") :
    ∃ kind ∈ [.concat, .binaryOp], ownKind? tree = some kind := by
  have hliteral : tree.type ∉ stringTypes := by
    rw [h]
    decide
  rw [ownKind?, if_neg hliteral, if_pos h]
  split_ifs <;> simp

/-! ## Nodes -/

theorem isKind_nodeOf (hapart : IsApart tree) (children : List Node) (kind : NodeKind) :
    (nodeOf source tree children).isKind kind = true ↔ ownKind? tree = some kind := by
  rw [Node.isKind, beq_iff_eq]
  exact kindOf_eq_text_iff hapart

end PhpAudit.Syntax
