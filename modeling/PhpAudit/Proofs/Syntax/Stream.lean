import PhpAudit.Proofs.Syntax.Query

/-!
# Queries over streams

A query sees its subject through walks, and all queries but one walk once. So they cannot tell a
stream from the forest of its nodes: they agree as soon as the first walks do (`Agree.of_visit`).

`hasInterpolation` walks twice, first for interpolated strings and then for literals that look like
one, and a stream has nothing left for the second walk. `stream_answers` states what that costs: it
misses the literals of a stream, so it answers as on a forest exactly when there is an interpolated
string to be found at once, or no such literal to be missed.
-/

namespace PhpAudit.Syntax.Subject

/-- Two subjects agree when every query that walks once has the same answer on both, whatever it
is asked for. -/
structure Agree (a b : Subject) : Prop where
  findAll : ∀ condition, a.findAll condition = b.findAll condition
  findFirst? : ∀ condition, a.findFirst? condition = b.findFirst? condition
  ofKind : ∀ kind, a.ofKind kind = b.ofKind kind
  methodCalls : ∀ method, a.methodCalls method = b.methodCalls method
  staticCalls : ∀ type method, a.staticCalls type method = b.staticCalls type method
  functionCalls : ∀ function, a.functionCalls function = b.functionCalls function
  declarations : ∀ kind, a.declarations kind = b.declarations kind
  methodDeclarations : ∀ owner, a.methodDeclarations owner = b.methodDeclarations owner
  hasConcatenation : a.hasConcatenation = b.hasConcatenation
  variableReferences : a.variableReferences = b.variableReferences

/-- Subjects agree when a walk finds the same nodes in both. What is left for a second walk may be
different. -/
theorem Agree.of_visit {a b : Subject} (h : a.visit.1 = b.visit.1) : Agree a b := by
  have hall (condition : Node → Bool) : a.findAll condition = b.findAll condition := by
    rw [Subject.findAll, Subject.findAll, h]
  have hfirst (condition : Node → Bool) : a.findFirst? condition = b.findFirst? condition := by
    rw [Subject.findFirst?, Subject.findFirst?, h]
  have hkind (kind : String) : a.ofKind kind = b.ofKind kind := hall _
  exact {
    findAll := hall
    findFirst? := hfirst
    ofKind := hkind
    methodCalls := fun _ => hall _
    staticCalls := fun _ _ => hall _
    functionCalls := fun _ => hall _
    declarations := fun kind => by rw [Subject.declarations, Subject.declarations, hkind]
    methodDeclarations := fun owner => by
      cases owner with
      | none => exact hkind _
      | some owner => rw [Subject.methodDeclarations, Subject.methodDeclarations, hfirst]
    hasConcatenation := by rw [Subject.hasConcatenation, Subject.hasConcatenation, hfirst]
    variableReferences := by rw [Subject.variableReferences, Subject.variableReferences, hkind] }

/-- A stream has an interpolation when the first walk comes to an interpolated string; literals that
look like one are not seen. -/
theorem hasInterpolation_stream (nodes : Forest) :
    (stream nodes).hasInterpolation = true ↔
      ∃ node ∈ walk nodes, node.isKind .interpolatedString = true := by
  have hsecond : (stream []).ofKind NodeKind.string.text = [] := rfl
  show (((walk nodes).find? fun node => node.isKind .interpolatedString).isSome ||
    ((stream []).ofKind NodeKind.string.text).any looksInterpolated) = true ↔ _
  rw [hsecond, List.any_nil, Bool.or_false, List.find?_isSome]

/-- **A stream answers as its forest does, but for interpolation.** The one query that walks twice
has the same answer exactly when it needs no second walk or would find nothing in it. -/
theorem stream_answers (nodes : Forest) :
    Agree (stream nodes) (forest nodes) ∧
      ((stream nodes).hasInterpolation = (forest nodes).hasInterpolation ↔
        (∃ node ∈ walk nodes, node.isKind .interpolatedString = true) ∨
          ¬ ∃ node ∈ walk nodes, node.isKind .string = true ∧
            ∃ value, node.value = some value ∧ MentionsVariable value.toList) := by
  refine ⟨.of_visit rfl, ?_⟩
  rw [Bool.eq_iff_iff, hasInterpolation_stream, hasInterpolation_forest]
  constructor
  · intro h
    by_cases hfound : ∃ node ∈ walk nodes, node.isKind .interpolatedString = true
    · exact .inl hfound
    · refine .inr fun ⟨node, hmem, hlooks⟩ => hfound (h.mpr ⟨node, hmem, .inr hlooks⟩)
  · rintro (hfound | hmissed)
    · obtain ⟨node, hmem, hkind⟩ := hfound
      exact ⟨fun _ => ⟨node, hmem, .inl hkind⟩, fun _ => ⟨node, hmem, hkind⟩⟩
    · refine ⟨fun ⟨node, hmem, hkind⟩ => ⟨node, hmem, .inl hkind⟩, ?_⟩
      rintro ⟨node, hmem, hkind | hlooks⟩
      · exact ⟨node, hmem, hkind⟩
      · exact absurd ⟨node, hmem, hlooks⟩ hmissed

/-- A lone literal with a variable in it is missed in a stream. -/
theorem hasInterpolation_stream_ne_forest :
    (stream [.mk "string" ⟨1, 1, 1⟩ { value := some "$x" } []]).hasInterpolation = false ∧
      (forest [.mk "string" ⟨1, 1, 1⟩ { value := some "$x" } []]).hasInterpolation = true := by
  decide +kernel

end PhpAudit.Syntax.Subject
