import Mathlib.Data.String.Basic
import PhpAudit.Files.Path

/-!
# The order of names

Names come in the order of their code points, and lists of names in the lexicographic order of
their names: a directory stands where its own name puts it, and everything below it there too.
-/

namespace PhpAudit.Files

theorem itemsLE_iff {α : Type} [LinearOrder α] {le : α → α → Bool}
    (h : ∀ a b, le a b = true ↔ a ≤ b) (as bs : List α) : itemsLE le as bs = true ↔ as ≤ bs := by
  induction as generalizing bs with
  | nil => simp only [itemsLE, ← not_lt, List.not_lt_nil, not_false_eq_true]
  | cons a as ih =>
    cases bs with
    | nil => simp only [itemsLE, Bool.false_eq_true, false_iff, ← not_lt, not_not, List.nil_lt_cons]
    | cons b bs =>
      unfold itemsLE
      rw [← not_lt, List.cons_lt_cons_iff]
      by_cases hab : a = b
      · rw [if_pos hab, ih, hab, ← not_lt]
        simp only [lt_irrefl, true_and, false_or]
      · rw [if_neg hab, h, ← not_lt]
        simp only [Ne.symm hab, false_and, or_false]

theorem nameLE_iff (a b : String) : nameLE a b = true ↔ a ≤ b := by
  have hchars : ∀ c d : Char, decide (c.toNat ≤ d.toNat) = true ↔ c ≤ d :=
    fun _ _ => decide_eq_true_iff
  unfold nameLE
  rw [itemsLE_iff hchars, ← not_lt, ← not_lt, String.lt_iff_toList_lt]

/-- Names are compared one after the other, each by its code points. -/
theorem namesLE_iff (as bs : List String) : namesLE as bs = true ↔ as ≤ bs :=
  itemsLE_iff nameLE_iff as bs

/-- Sorting different names puts them in strictly increasing order. -/
theorem pairwise_lt_mergeSort {names : List (List String)} (h : names.Nodup) :
    (names.mergeSort namesLE).Pairwise (· < ·) := by
  have hsorted : (names.mergeSort namesLE).Pairwise fun a b => namesLE a b = true := by
    apply List.pairwise_mergeSort
    · intro a b c hab hbc
      rw [namesLE_iff] at hab hbc ⊢
      exact hab.trans hbc
    · intro a b
      rw [Bool.or_eq_true, namesLE_iff, namesLE_iff]
      exact le_total a b
  have hnodup : (names.mergeSort namesLE).Pairwise (· ≠ ·) :=
    (List.mergeSort_perm names namesLE).nodup_iff.mpr h
  refine (hsorted.and hnodup).imp ?_
  rintro a b ⟨hle, hne⟩
  exact lt_of_le_of_ne ((namesLE_iff a b).mp hle) hne

end PhpAudit.Files
