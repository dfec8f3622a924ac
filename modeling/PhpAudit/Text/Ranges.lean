/-!
# Sets of characters given by ranges
-/

namespace PhpAudit.Text

/-- Closed ranges of code points, in increasing order. -/
abbrev Ranges : Type := List (Nat × Nat)

namespace Ranges

/-- Whether a code point lies in one of the ranges. -/
def contains (ranges : Ranges) (code : Nat) : Bool :=
  ranges.any fun (low, high) => low ≤ code && code ≤ high

/-- The first code point of the range that holds the given one. -/
def start? (ranges : Ranges) (code : Nat) : Option Nat :=
  (ranges.find? fun (low, high) => low ≤ code && code ≤ high).map Prod.fst

/-- Ranges that do not meet have no code point in common. -/
theorem not_contains_of_apart {ranges others : Ranges} {code : Nat}
    (hapart : (ranges.all fun range => others.all fun other =>
      range.2.blt other.1 || other.2.blt range.1) = true)
    (h : ranges.contains code = true) : others.contains code = false := by
  obtain ⟨range, hrange, hcode⟩ := List.any_eq_true.mp h
  apply List.any_eq_false.mpr
  intro other hother
  simp only [List.all_eq_true, Bool.or_eq_true, Nat.blt_eq] at hapart
  have := hapart range hrange other hother
  simp only [Bool.and_eq_true, decide_eq_true_eq] at hcode ⊢
  omega

end Ranges

end PhpAudit.Text
