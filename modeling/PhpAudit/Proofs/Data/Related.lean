import Mathlib.Data.List.Forall2

/-!
# Lists that are related item by item

What is written, listed or set for some things comes one for each of them and in their order, so it
is stated as `List.Forall₂` of a relation on the items, and as `Option.Rel` where there may be none.
Here is what such a relation gives on the lists: each side has a partner for every item of the other,
partners for all items are partners for the lists, and layouts of the items make layouts of the lists.
-/

namespace PhpAudit.Data

section related

variable {α β γ : Type} {Related : α → β → Prop} {xs : List α} {ys : List β}

/-- Each item on the left is related to one on the right. -/
theorem exists_mem_right (h : List.Forall₂ Related xs ys) {x : α} (hx : x ∈ xs) :
    ∃ y ∈ ys, Related x y := by
  induction h with
  | nil => cases hx
  | cons hfirst _ ih =>
    rcases List.mem_cons.mp hx with rfl | hx
    · exact ⟨_, List.mem_cons_self, hfirst⟩
    · obtain ⟨y, hy, hrelated⟩ := ih hx
      exact ⟨y, List.mem_cons_of_mem _ hy, hrelated⟩

/-- Each item on the right is related to one on the left. -/
theorem exists_mem_left (h : List.Forall₂ Related xs ys) {y : β} (hy : y ∈ ys) :
    ∃ x ∈ xs, Related x y :=
  exists_mem_right h.flip hy

/-- A list has a partner just when each of its items has one. -/
theorem exists_forall₂_iff :
    (∃ ys, List.Forall₂ Related xs ys) ↔ ∀ x ∈ xs, ∃ y, Related x y := by
  constructor
  · rintro ⟨ys, h⟩ x hx
    obtain ⟨y, -, hy⟩ := exists_mem_right h hx
    exact ⟨y, hy⟩
  · intro h
    induction xs with
    | nil => exact ⟨[], .nil⟩
    | cons x xs ih =>
      obtain ⟨⟨y, hy⟩, hxs⟩ := List.forall_mem_cons.mp h
      obtain ⟨ys, hys⟩ := ih hxs
      exact ⟨y :: ys, .cons hy hys⟩

/-- What may be missing has a partner just when it has one if it is there. -/
theorem exists_rel_iff {value : Option α} :
    (∃ other, Option.Rel Related value other) ↔ ∀ x ∈ value, ∃ y, Related x y := by
  constructor
  · rintro ⟨_, h⟩ x hx
    cases h with
    | none => cases hx
    | some h =>
      cases hx
      exact ⟨_, h⟩
  · intro h
    cases value with
    | none => exact ⟨none, .none⟩
    | some x =>
      obtain ⟨y, hy⟩ := h x rfl
      exact ⟨some y, .some hy⟩

/-- The partner of a list is empty just when the list is. -/
theorem eq_nil_iff_of_forall₂ (h : List.Forall₂ Related xs ys) : ys = [] ↔ xs = [] := by
  rw [← List.length_eq_zero_iff, ← List.length_eq_zero_iff, h.length_eq]

/-- What related items have in common, the lists have. -/
theorem map_eq_of_forall₂ {f : β → γ} {g : α → γ} (hstep : ∀ x y, Related x y → f y = g x)
    (h : List.Forall₂ Related xs ys) : ys.map f = xs.map g := by
  induction h with
  | nil => rfl
  | cons hfirst _ ih => rw [List.map_cons, List.map_cons, ih, hstep _ _ hfirst]

end related

/-- Of two layouts of the same things one after the other, with more things in the second, the first
is part of the second if it is for each thing. -/
theorem sublist_flatMap {α β γ : Type} {BriefAs FullAs : α → β → Prop} {layout : β → List γ}
    {xs ys : List α} (hsub : xs.Sublist ys) {briefs fulls : List β}
    (hbriefs : List.Forall₂ BriefAs xs briefs) (hfulls : List.Forall₂ FullAs ys fulls)
    (hstep : ∀ x brief full, BriefAs x brief → FullAs x full →
      (layout brief).Sublist (layout full)) :
    (briefs.flatMap layout).Sublist (fulls.flatMap layout) := by
  induction hsub generalizing briefs fulls with
  | slnil =>
    cases hbriefs
    exact List.nil_sublist _
  | cons _ _ ih =>
    cases hfulls with
    | cons _ hfulls =>
      rw [List.flatMap_cons]
      exact (ih hbriefs hfulls).trans (List.sublist_append_right _ _)
  | cons_cons _ _ ih =>
    cases hbriefs with
    | cons hbrief hbriefs =>
      cases hfulls with
      | cons hfull hfulls =>
        rw [List.flatMap_cons, List.flatMap_cons]
        exact (hstep _ _ _ hbrief hfull).append (ih hbriefs hfulls)

end PhpAudit.Data
