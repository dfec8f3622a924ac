import PhpAudit.Proofs.Syntax.Kinds
import PhpAudit.Proofs.Syntax.Query

/-!
# Which sources put strings together

The string queries see nodes; what they are meant to notice are constructs. `Concatenates` and
`Interpolates` say of a construct that it puts strings together, and `LooksInterpolated` of any
other literal that its content reads as if it did. `stringQueries_iff` says that the queries answer
for these and for nothing else: a source concatenates when a retained construct of it does, and it
interpolates when one interpolates or looks like it.

The search for embedded values goes down into the lines of a heredoc, and into no other construct.
`HasEmbedded` says what it looks for as a relation, so that the depth of the search does not show.
-/

namespace PhpAudit.Syntax

open PhpAudit.Grammar (Tree)
open PhpAudit.Syntax.Subject (MentionsVariable)

variable {source : List UInt8} {root tree : Tree}

/-! ## Embedded values -/

/-- A construct has a part inside that is no plain text. The lines of a heredoc are looked through,
those inside them as well. -/
inductive HasEmbedded : Tree → Prop
  | part {tree part : Tree} : part ∈ tree.namedChildren → part.type ≠ "heredoc_body" →
    part.type ∉ literalPartTypes → HasEmbedded tree
  | within {tree body : Tree} : body ∈ tree.namedChildren → body.type = "heredoc_body" →
    HasEmbedded body → HasEmbedded tree

/-- What a part of a literal must be for the literal to have an embedded value. -/
def IsEmbedded (part : Tree) : Prop :=
  if part.type = "heredoc_body" then HasEmbedded part else part.type ∉ literalPartTypes

/-- Something is embedded in a text iff one of its named parts is. -/
theorem hasEmbedded_iff_exists :
    HasEmbedded tree ↔ ∃ part ∈ tree.namedChildren, IsEmbedded part := by
  constructor
  · intro h
    cases h with
    | part hpart hbody hplain => exact ⟨_, hpart, by rwa [IsEmbedded, if_neg hbody]⟩
    | within hpart hbody hinside => exact ⟨_, hpart, by rwa [IsEmbedded, if_pos hbody]⟩
  · rintro ⟨part, hpart, h⟩
    rw [IsEmbedded] at h
    split at h
    next hbody => exact .within hpart hbody h
    next hbody => exact .part hpart hbody h

mutual

/-- The search of a construct finds an embedded value exactly when there is one. -/
theorem hasEmbedded_iff (tree : Tree) : hasEmbedded tree = true ↔ HasEmbedded tree := by
  match tree with
  | .node type named field span children =>
    rw [hasEmbedded, anyEmbedded_iff children, hasEmbedded_iff_exists]
    simp only [Tree.namedChildren, Tree.children, List.mem_filter, and_assoc]
termination_by structural tree

/-- The search of some constructs finds an embedded value exactly when one of them is one. -/
theorem anyEmbedded_iff (trees : List Tree) :
    anyEmbedded trees = true ↔ ∃ part ∈ trees, part.named = true ∧ IsEmbedded part := by
  match trees with
  | [] => simp [anyEmbedded]
  | .node type named field span children :: rest =>
    have hfirst : (if type == "heredoc_body" then hasEmbedded (.node type named field span children)
        else !literalPartTypes.contains type) = true ↔
          IsEmbedded (.node type named field span children) := by
      rw [IsEmbedded, Tree.type]
      by_cases hbody : type = "heredoc_body"
      · rw [if_pos (beq_iff_eq.mpr hbody), if_pos hbody, hasEmbedded_iff]
      · rw [if_neg (by simpa using hbody), if_neg hbody]
        simp
    rw [anyEmbedded, Bool.or_eq_true, Bool.and_eq_true, hfirst, anyEmbedded_iff rest,
      List.exists_mem_cons_iff, Tree.named]
termination_by structural trees

end

/-! ## What puts strings together -/

/-- An operation whose operator, the first child in that field, is a dot. -/
def Concatenates (tree : Tree) : Prop :=
  tree.type = "binary_expression" ∧ ∃ operator ∈ tree.childInField? "operator", operator.type = "."

/-- A literal that a value is put into. -/
def Interpolates (tree : Tree) : Prop :=
  tree.type ∈ ["encapsed_string", "heredoc"] ∧ HasEmbedded tree

/-- Any other literal, if what it holds mentions a variable. -/
def LooksInterpolated (source : List UInt8) (tree : Tree) : Prop :=
  tree.type ∈ ["string", "encapsed_string", "heredoc", "nowdoc"] ∧ ¬ Interpolates tree ∧
    MentionsVariable (literalValue source tree).toList

instance : DecidablePred HasEmbedded := fun tree =>
  decidable_of_iff (hasEmbedded tree = true) (hasEmbedded_iff tree)

instance : DecidablePred Concatenates := fun tree =>
  inferInstanceAs (Decidable (tree.type = _ ∧ ∃ operator ∈ tree.childInField? _, _))

instance : DecidablePred Interpolates := fun tree =>
  inferInstanceAs (Decidable (tree.type ∈ _ ∧ HasEmbedded tree))

instance (source : List UInt8) : DecidablePred (LooksInterpolated source) := fun tree =>
  have : Decidable (MentionsVariable (literalValue source tree).toList) :=
    decidable_of_iff _ (Subject.mentionsVariable_iff _)
  inferInstanceAs (Decidable (tree.type ∈ _ ∧ ¬ Interpolates tree ∧ _))

/-- The operator is the type of the token in its field. -/
theorem operatorOf?_eq_some {operator : String} :
    operatorOf? tree = some operator ↔
      ∃ token ∈ tree.childInField? "operator", token.type = operator :=
  Option.map_eq_some_iff

/-- The type and the parts of a text decide whether it interpolates. -/
theorem isInterpolated_iff : isInterpolated tree = true ↔ Interpolates tree := by
  rw [isInterpolated, Bool.and_eq_true, hasEmbedded_iff, List.contains_iff_mem]
  rfl

/-- The two kinds of strings are told apart by whether a value is put in. -/
theorem ownKind?_literal_iff :
    (ownKind? tree = some .interpolatedString ↔ Interpolates tree) ∧
      (ownKind? tree = some .string ↔ tree.type ∈ stringTypes ∧ ¬ Interpolates tree) := by
  have hliterals : ∀ type ∈ interpolatingTypes, type ∈ stringTypes := by decide
  by_cases htype : tree.type ∈ stringTypes
  · rw [ownKind?, if_pos htype, ← isInterpolated_iff]
    split <;> simp_all
  · have hnone {kind : NodeKind} (hkind : kind ∈ [NodeKind.string, .interpolatedString]) :
        ownKind? tree ≠ some kind := fun h => htype (mem_stringTypes_iff.mpr ⟨kind, hkind, h⟩)
    refine ⟨iff_of_false (hnone (by decide)) fun h => htype (hliterals _ h.1),
      iff_of_false (hnone (by decide)) fun h => htype h.1⟩

/-! ## Nodes -/

/-- A node is read as a concatenation iff its tree concatenates. -/
theorem isConcat_read (hapart : IsApart tree) :
    (read source tree).isKind .concat = true ↔ Concatenates tree := by
  rw [read_eq, isKind_nodeOf hapart, ownKind?_eq_concat_iff, operatorOf?_eq_some]
  rfl

/-- A node is read as an interpolated text iff its tree interpolates. -/
theorem isInterpolatedString_read (hapart : IsApart tree) :
    (read source tree).isKind .interpolatedString = true ↔ Interpolates tree := by
  rw [read_eq, isKind_nodeOf hapart, ownKind?_literal_iff.1]

/-- Only a string literal is read with a value. -/
theorem value_read (source : List UInt8) (tree : Tree) :
    (read source tree).value =
      if tree.type ∈ stringTypes then some (literalValue source tree) else none := by
  simp only [read_eq, nodeOf, Node.value, Node.payload, payloadOf, List.contains_iff_mem]

/-- A node is a plain string that mentions a variable when its construct looks interpolated. -/
theorem looksInterpolated_read (hapart : IsApart tree) :
    ((read source tree).isKind .string = true ∧
        ∃ value, (read source tree).value = some value ∧ MentionsVariable value.toList) ↔
      LooksInterpolated source tree := by
  rw [value_read, read_eq, isKind_nodeOf hapart, ownKind?_literal_iff.2, LooksInterpolated,
    and_assoc]
  refine and_congr_right fun htype => and_congr_right fun _ => ?_
  rw [if_pos htype]
  simp

/-! ## Sources -/

/-- A node that the walk comes to is that of a retained construct. -/
theorem Mirrors.exists_mem_walk {forest : Forest} (h : Mirrors source root forest)
    {condition : Node → Prop} :
    (∃ node ∈ walk forest, condition node) ↔
      ∃ place ∈ retainedBelow root, condition (read source place.item) := by
  rw [h.walk_eq]
  simp only [List.mem_map, exists_exists_and_eq_and]

/-- Text between tags does not put strings together, and does not look like it. -/
theorem not_joins_of_text (source : List UInt8) (h : tree.type = "text") :
    ¬ Concatenates tree ∧ ¬ (Interpolates tree ∨ LooksInterpolated source tree) := by
  simp [Concatenates, Interpolates, LooksInterpolated, h]

/-- **The string queries answer for the constructs that put strings together.** A source has a
concatenation when one of its retained constructs concatenates, and an interpolation when one
interpolates or is a literal that looks like it. A blank source is not parsed; it can hold nothing
but text. -/
theorem stringQueries_iff (source : List UInt8) (parse? : List UInt8 → Option Tree) (root : Tree)
    (hparse : parse? source = some root)
    (hblank : isBlankSource source = true → ∀ place ∈ retainedBelow root, place.item.type = "text")
    (hapart : SpelledApart root) :
    ((Subject.forest (forestBy parse? source)).hasConcatenation = true ↔
        ∃ place ∈ retainedBelow root, Concatenates place.item) ∧
      ((Subject.forest (forestBy parse? source)).hasInterpolation = true ↔
        ∃ place ∈ retainedBelow root,
          Interpolates place.item ∨ LooksInterpolated source place.item) := by
  rw [Subject.hasConcatenation_forest, Subject.hasInterpolation_forest]
  cases hsource : isBlankSource source with
  | true =>
    have hnone : walk (forestBy parse? source) = [] := by
      rw [forestBy, if_pos hsource]
      rfl
    have htext := hblank hsource
    rw [hnone]
    refine ⟨iff_of_false (by simp) ?_, iff_of_false (by simp) ?_⟩
    · rintro ⟨place, hplace, h⟩
      exact (not_joins_of_text source (htext place hplace)).1 h
    · rintro ⟨place, hplace, h⟩
      exact (not_joins_of_text source (htext place hplace)).2 h
  | false =>
    have hforest : forestBy parse? source = forestOf source root :=
      forestBy_eq_forestOf source hparse fun h => by rw [hsource] at h; cases h
    have hmirrors := forestOf_mirrors source root
    rw [hforest, hmirrors.exists_mem_walk, hmirrors.exists_mem_walk]
    constructor
    · exact exists_congr fun place => and_congr_right fun hplace =>
        isConcat_read (hapart.isApart hplace)
    · refine exists_congr fun place => and_congr_right fun hplace => ?_
      rw [isInterpolatedString_read (hapart.isApart hplace),
        looksInterpolated_read (hapart.isApart hplace)]

/-- A call that takes a heredoc with a value in its lines, a sum, and a literal with a dollar sign
between single quotes. -/
def embeddingSource : List UInt8 :=
  Text.Utf8.encodeString "<?php f(<<<E\n\x7b$x->y\x7d\nE, 1 + 2, '$z');"

/-- The heredoc interpolates and the literal looks like it; the sum is no concatenation. -/
theorem stringQueries_iff_embeddingSource :
    ∃ root, Grammar.parse? embeddingSource = some root ∧ isBlankSource embeddingSource = false ∧
      SpelledApart root ∧
      (∀ place ∈ retainedBelow root, ¬ Concatenates place.item) ∧
      ((retainedBelow root).filter fun place => Interpolates place.item).map (·.item.type) =
        ["heredoc"] ∧
      ((retainedBelow root).filter fun place =>
          LooksInterpolated embeddingSource place.item).map (·.item.type) = ["string"] ∧
      (Subject.forest (forestBy Grammar.parse? embeddingSource)).hasConcatenation = false ∧
      (Subject.forest (forestBy Grammar.parse? embeddingSource)).hasInterpolation = true := by
  have hsource : isBlankSource embeddingSource = false := by decide +kernel
  have hroot : (Grammar.parse? embeddingSource).map (fun root => (decide (SpelledApart root),
      decide (∀ place ∈ retainedBelow root, ¬ Concatenates place.item),
      ((retainedBelow root).filter fun place => Interpolates place.item).map (·.item.type),
      ((retainedBelow root).filter fun place =>
        LooksInterpolated embeddingSource place.item).map (·.item.type))) =
      some (true, true, ["heredoc"], ["string"]) := by
    decide +kernel
  obtain ⟨root, hparse, hfacts⟩ := Option.map_eq_some_iff.mp hroot
  simp only [Prod.mk.injEq, decide_eq_true_eq] at hfacts
  obtain ⟨hapart, hconcatenates, hinterpolates, hlooks⟩ := hfacts
  obtain ⟨hconcatenation, hinterpolation⟩ := stringQueries_iff embeddingSource Grammar.parse? root
    hparse (fun h => by rw [hsource] at h; cases h) hapart
  refine ⟨root, hparse, hsource, hapart, hconcatenates, hinterpolates, hlooks, ?_, ?_⟩
  · rw [← Bool.not_eq_true, hconcatenation]
    exact fun ⟨place, hplace, h⟩ => hconcatenates place hplace h
  · have hone := List.mem_singleton_self "heredoc"
    rw [← hinterpolates] at hone
    obtain ⟨place, hmem, -⟩ := List.mem_map.mp hone
    obtain ⟨hretained, hembeds⟩ := List.mem_filter.mp hmem
    exact hinterpolation.mpr ⟨place, hretained, .inl (of_decide_eq_true hembeds)⟩

end PhpAudit.Syntax
