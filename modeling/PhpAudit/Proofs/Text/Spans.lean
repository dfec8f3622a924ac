import Mathlib.Data.List.TakeDrop
import Mathlib.Data.List.TakeWhile

/-!
# Lists up to a separator

A list is cut at the first separator in it: what stands in front of the separator is a list without
one, and every list without one can stand there.
-/

namespace PhpAudit.Text

variable {α : Type} [BEq α] [LawfulBEq α] {sep : α} {items : List α}

theorem ne_of_notMem (h : sep ∉ items) : ∀ item ∈ items, (item != sep) = true := by
  intro item hitem
  rw [bne_iff_ne]
  rintro rfl
  exact h hitem

theorem takeWhile_append_sep (h : sep ∉ items) (rest : List α) :
    (items ++ sep :: rest).takeWhile (· != sep) = items := by
  rw [List.takeWhile_append_of_pos (ne_of_notMem h), List.takeWhile_cons_of_neg (by simp),
    List.append_nil]

/-- A list without a separator goes up to a separator, or to the end. -/
theorem span_of_notMem (h : sep ∉ items) : items.span (· != sep) = (items, []) := by
  rw [List.span_eq_takeWhile_dropWhile, List.takeWhile_eq_self_iff.mpr (ne_of_notMem h),
    List.dropWhile_eq_nil_iff.mpr (ne_of_notMem h)]

theorem span_append_sep (h : sep ∉ items) (rest : List α) :
    (items ++ sep :: rest).span (· != sep) = (items, sep :: rest) := by
  rw [List.span_eq_takeWhile_dropWhile, takeWhile_append_sep h,
    List.dropWhile_append_of_pos (ne_of_notMem h), List.dropWhile_cons_of_neg (by simp)]

/-- What is left of a list starts with the first separator. -/
theorem eq_append_of_span {front rest : List α} {item : α}
    (h : items.span (· != sep) = (front, item :: rest)) :
    items = front ++ sep :: rest ∧ sep ∉ front := by
  rw [List.span_eq_takeWhile_dropWhile, Prod.mk.injEq] at h
  obtain ⟨hfront, hrest⟩ := h
  have hitem := List.head?_dropWhile_not (· != sep) items
  rw [hrest, List.head?_cons] at hitem
  obtain rfl : item = sep := by simpa using hitem
  refine ⟨?_, fun hmem => ?_⟩
  · rw [← hfront, ← hrest, List.takeWhile_append_dropWhile]
  · rw [← hfront] at hmem
    simpa using List.mem_takeWhile_imp hmem

end PhpAudit.Text
