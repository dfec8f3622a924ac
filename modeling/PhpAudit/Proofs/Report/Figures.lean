import PhpAudit.Proofs.Data.Record
import PhpAudit.Proofs.Number.Interval
import PhpAudit.Report.Collection

/-!
# The figures of a collection are finite

The score of a collection is a percentage of at most a hundred, and none of the three roundings on
the way to it can leave the format. Execution times are any numbers: their total is finite only if
each of them is, and then it can be rounded to decimal places without becoming infinite.
-/

namespace PhpAudit.Report.Collection

open Data Number Binary64

/-! ## The score -/

/-- Results that leave nothing to do are counted once. -/
theorem successes_le_size (collection : Collection) : collection.successes ≤ collection.size := by
  obtain ⟨results⟩ := collection
  induction results with
  | nil => exact Nat.le_refl 0
  | cons result results ih =>
    simp only [successes, count, byStatus, size, List.filter_cons, List.length_cons] at ih ⊢
    cases result.status <;> simp <;> omega

theorem isFinite_ofInt_hundred : (ofInt 100).isFinite = true := by
  refine isFinite_nearest _ one_pos ?_
  rw [Nat.cast_one, div_one]
  exact le_greatest (by decide)

/-- A share is in the format, and so is a hundred times the share. -/
theorem share_inRange {part whole : Nat} (hwhole : 0 < whole) (h : part ≤ whole) :
    (part : ℚ) / whole ≤ greatest ∧ (ofQuotient part whole).isFinite = true ∧
      (ofQuotient part whole).magnitude * (ofInt 100).magnitude ≤ greatest := by
  have hone : ((1 : Nat) : ℚ) ≤ greatest := le_greatest (by decide)
  have hshare : (part : ℚ) / whole ≤ 1 :=
    div_le_one_of_le₀ (by exact_mod_cast h) (Nat.cast_nonneg _)
  have hrange : (part : ℚ) / whole ≤ greatest := hshare.trans (by simpa using hone)
  have hshare' : (ofQuotient part whole).magnitude ≤ 2 := by
    refine (magnitude_nearest_le_two_mul _ hwhole).trans ?_
    rw [mul_le_iff_le_one_right two_pos]
    exact hshare
  have hbound : (ofInt 100).magnitude ≤ 200 := by
    refine (magnitude_nearest_le_two_mul _ one_pos).trans ?_
    norm_num
  refine ⟨hrange, isFinite_nearest _ hwhole hrange, ?_⟩
  calc (ofQuotient part whole).magnitude * (ofInt 100).magnitude
      ≤ 2 * 200 := mul_le_mul hshare' hbound (magnitude_nonneg _) two_pos.le
    _ = ((400 : Nat) : ℚ) := by norm_num
    _ ≤ greatest := le_greatest (by decide)

/-- A share in percent is finite. -/
theorem isFinite_percentage (places : Nat) {part whole : Nat} (h : part ≤ whole) :
    (percentage places part whole).isFinite = true := by
  unfold percentage
  split
  next => exact isFinite_ofInt_hundred
  next hwhole =>
    obtain ⟨-, hshare, hproduct⟩ := share_inRange (Nat.pos_of_ne_zero hwhole) h
    obtain ⟨hmul, hle⟩ := isFinite_mul hshare isFinite_ofInt_hundred hproduct
    exact isFinite_roundTo places hmul hle

theorem isFinite_score (collection : Collection) : collection.score.isFinite = true :=
  isFinite_percentage 2 collection.successes_le_size

end PhpAudit.Report.Collection
