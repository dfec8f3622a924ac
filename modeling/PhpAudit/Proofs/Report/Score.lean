import PhpAudit.Proofs.Number.Order
import PhpAudit.Proofs.Report.Figures

/-!
# The score of a collection

The score is the share of the results that leave nothing to do, in percent. It goes through a
division, a multiplication and a rounding to decimal places, each of which rounds once and keeps the
order of what it rounds (`percentage_mono`). So the score lies between what it is when nothing
succeeds and what it is when everything does, and a result that is added moves it only in the
direction of that result (`score_graded`).
-/

namespace PhpAudit.Report

open Data Number Binary64

/-- Passed and skipped results count as successes. -/
theorem Result.isSuccess_iff {result : Result} :
    result.isSuccess = true ↔ result.status = .passed ∨ result.status = .skipped := by
  rw [Result.isSuccess]
  cases result.status <;> decide

namespace Collection

/-! ## Percentages -/

/-- Everything is a hundred percent, without an error. -/
theorem percentage_self (whole : Nat) : percentage 2 whole whole = .ofInt 100 := by
  unfold percentage
  split
  next => rfl
  next hwhole =>
    have hone : ofQuotient whole whole = ofQuotient 1 1 := by
      refine nearest_congr false hwhole (Nat.pos_of_ne_zero hwhole) one_ne_zero one_pos ?_
      rw [div_self (by exact_mod_cast hwhole), Nat.cast_one, div_one]
    rw [hone]
    decide +kernel

/-- Nothing is zero percent, without an error. -/
theorem percentage_zero {whole : Nat} (hwhole : whole ≠ 0) :
    percentage 2 0 whole = .ofInt 0 := by
  have hzero : ofQuotient 0 whole = zero false := by rw [ofQuotient, nearest, if_pos rfl]
  rw [percentage, if_neg hwhole, hzero]
  decide +kernel

theorem value_ofInt_hundred : (ofInt 100).value = 100 := by
  have h : ofInt 100 = .finite false (100 * 2 ^ 46) (-46) := by decide +kernel
  rw [h, value_of_not_isNegative rfl, magnitude]
  norm_num

theorem value_ofInt_zero : (ofInt 0).value = 0 := by
  have h : ofInt 0 = zero false := rfl
  rw [h, value_of_not_isNegative rfl, magnitude_zero]

/-- A percentage is not negative. -/
theorem isNegative_percentage (places : Nat) {part whole : Nat} (h : part ≤ whole) :
    (percentage places part whole).isNegative = false := by
  unfold percentage
  split
  next => rfl
  next hwhole =>
    obtain ⟨-, hshare, hproduct⟩ := share_inRange (Nat.pos_of_ne_zero hwhole) h
    obtain ⟨hmul, -⟩ := isFinite_mul hshare isFinite_ofInt_hundred hproduct
    obtain ⟨_, _, -, -, hround⟩ := exists_roundTo_eq_nearest places hmul
    obtain ⟨_, _, -, -, hproduct⟩ := exists_mul_eq_nearest hshare isFinite_ofInt_hundred
    rw [hround, isNegative_nearest, hproduct, isNegative_nearest, ofQuotient, isNegative_nearest]
    rfl

/-- Of two shares the smaller one is not the greater percentage. -/
theorem percentage_mono (places : Nat) {part₁ whole₁ part₂ whole₂ : Nat} (hwhole₁ : 0 < whole₁)
    (hwhole₂ : 0 < whole₂) (hpart₁ : part₁ ≤ whole₁) (hpart₂ : part₂ ≤ whole₂)
    (h : (part₁ : ℚ) / whole₁ ≤ part₂ / whole₂) :
    (percentage places part₁ whole₁).value ≤ (percentage places part₂ whole₂).value := by
  rw [value_of_not_isNegative (isNegative_percentage places hpart₁),
    value_of_not_isNegative (isNegative_percentage places hpart₂), percentage, percentage,
    if_neg hwhole₁.ne', if_neg hwhole₂.ne']
  obtain ⟨-, hshare₁, hproduct₁⟩ := share_inRange hwhole₁ hpart₁
  obtain ⟨hrange, hshare₂, hproduct₂⟩ := share_inRange hwhole₂ hpart₂
  obtain ⟨hmul₁, -⟩ := isFinite_mul hshare₁ isFinite_ofInt_hundred hproduct₁
  obtain ⟨hmul₂, hle⟩ := isFinite_mul hshare₂ isFinite_ofInt_hundred hproduct₂
  have hshares : (ofQuotient part₁ whole₁).magnitude ≤ (ofQuotient part₂ whole₂).magnitude :=
    magnitude_nearest_mono _ _ hwhole₁ hwhole₂ h hrange
  exact magnitude_roundTo_mono places hmul₁ hmul₂
    (magnitude_mul_mono hshare₁ hshare₂ isFinite_ofInt_hundred hshares hproduct₂) hle

/-! ## What is counted -/

section

variable {collection : Collection} {result : Result}

/-- The results that passed and those that were skipped are the ones that leave nothing to do. -/
theorem successes_eq_countP (collection : Collection) :
    collection.successes = collection.results.countP Result.isSuccess := by
  obtain ⟨results⟩ := collection
  induction results with
  | nil => rfl
  | cons result results ih =>
    simp only [successes, count, byStatus, List.filter_cons, List.countP_cons] at ih ⊢
    rw [Result.isSuccess, ← ih]
    cases result.status <;> simp [Status.isSuccess] <;> omega

/-- A success more adds one to the successes. -/
theorem successes_add_of_isSuccess (h : result.isSuccess = true) :
    (collection.add result).successes = collection.successes + 1 := by
  rw [successes_eq_countP, successes_eq_countP, add, List.countP_append, List.countP_singleton,
    if_pos h]

/-- A result that is no success leaves the successes as they are. -/
theorem successes_add_of_not_isSuccess (h : result.isSuccess = false) :
    (collection.add result).successes = collection.successes := by
  rw [successes_eq_countP, successes_eq_countP, add, List.countP_append, List.countP_singleton, h,
    if_neg Bool.false_ne_true, Nat.add_zero]

/-- A result more adds one to the size. -/
theorem size_add : (collection.add result).size = collection.size + 1 := by
  rw [size, size, add, List.length_append, List.length_singleton]

/-! ## The score -/

/-- If every result leaves nothing to do, the score is a hundred. -/
theorem score_of_isSuccess (h : ∀ result ∈ collection.results, result.isSuccess = true) :
    collection.score = .ofInt 100 := by
  have hall : collection.successes = collection.size := by
    rw [successes_eq_countP, size]
    exact List.countP_eq_length.mpr h
  rw [score, hall, percentage_self]

/-- If there are results and none of them leaves nothing to do, the score is zero. -/
theorem score_of_not_isSuccess (hsome : collection.results ≠ [])
    (h : ∀ result ∈ collection.results, result.isSuccess = false) :
    collection.score = .ofInt 0 := by
  have hnone : collection.successes = 0 := by
    rw [successes_eq_countP, List.countP_eq_zero]
    intro result hresult
    rw [h result hresult]
    exact Bool.false_ne_true
  rw [score, hnone]
  exact percentage_zero fun hsize => hsome (List.length_eq_zero_iff.mp hsize)

/-- The order of the results does not matter to the score. -/
theorem score_perm {other : Collection} (h : other.results.Perm collection.results) :
    other.score = collection.score := by
  rw [score, score, successes_eq_countP, successes_eq_countP, size, size, h.countP_eq,
    h.length_eq]

/-- The score is at least 0. -/
theorem score_nonneg (collection : Collection) : 0 ≤ collection.score.value := by
  rw [score, value_of_not_isNegative (isNegative_percentage 2 collection.successes_le_size)]
  exact magnitude_nonneg _

/-- The score is at most 100. -/
theorem score_le_hundred (collection : Collection) : collection.score.value ≤ 100 := by
  rw [← value_ofInt_hundred, ← percentage_self collection.size, score]
  rcases Nat.eq_zero_or_pos collection.size with hnone | hsome
  · rw [hnone, percentage, percentage, if_pos rfl, if_pos rfl]
  · refine percentage_mono 2 hsome hsome collection.successes_le_size (Nat.le_refl _) ?_
    refine div_le_div_of_nonneg_right ?_ (Nat.cast_nonneg _)
    exact_mod_cast collection.successes_le_size

/-- A result that leaves nothing to do does not lower the score. -/
theorem score_le_score_add (h : result.isSuccess = true) :
    collection.score.value ≤ (collection.add result).score.value := by
  have hle := collection.successes_le_size
  rcases Nat.eq_zero_or_pos collection.size with hnone | hsome
  · -- a first result makes the score a hundred
    have hall : ∀ other ∈ (collection.add result).results, other.isSuccess = true := by
      rw [add, List.length_eq_zero_iff.mp hnone, List.nil_append, List.forall_mem_singleton]
      exact h
    rw [score_of_isSuccess hall, value_ofInt_hundred]
    exact collection.score_le_hundred
  · have hsome' : (0 : ℚ) < collection.size := by exact_mod_cast hsome
    have hle' : (collection.successes : ℚ) ≤ collection.size := by exact_mod_cast hle
    rw [score, score, successes_add_of_isSuccess h, size_add]
    refine percentage_mono 2 hsome (Nat.succ_pos _) hle (Nat.succ_le_succ hle) ?_
    push_cast
    rw [div_le_div_iff₀ hsome' (by positivity)]
    linarith

/-- A result that leaves something to do does not raise the score. -/
theorem score_add_le_score (h : result.isSuccess = false) :
    (collection.add result).score.value ≤ collection.score.value := by
  have hle := collection.successes_le_size
  rcases Nat.eq_zero_or_pos collection.size with hnone | hsome
  · -- without results the score is a hundred
    have hall : ∀ other ∈ collection.results, other.isSuccess = true := by
      rw [List.length_eq_zero_iff.mp hnone]
      exact List.forall_mem_nil _
    rw [score_of_isSuccess hall, value_ofInt_hundred]
    exact (collection.add result).score_le_hundred
  · rw [score, score, successes_add_of_not_isSuccess h, size_add]
    refine percentage_mono 2 (Nat.succ_pos _) hsome (Nat.le_succ_of_le hle) hle ?_
    refine div_le_div_of_nonneg_left (Nat.cast_nonneg _) (by exact_mod_cast hsome) ?_
    exact_mod_cast Nat.le_succ collection.size

/-- **The score goes with the results.** It is a number from zero to a hundred: a hundred if every
result passed or was skipped, also if there is none, and zero if there are results but none of
these. The order of the results makes no difference. One more result that passed or was skipped
does not lower the score, and any other one does not raise it. -/
theorem score_graded (collection : Collection) :
    (collection.score.isFinite = true ∧ 0 ≤ collection.score.value ∧
      collection.score.value ≤ 100) ∧
    ((∀ result ∈ collection.results, result.status = .passed ∨ result.status = .skipped) →
      collection.score = .ofInt 100 ∧ collection.score.value = 100) ∧
    (collection.results ≠ [] →
      (∀ result ∈ collection.results, ¬ (result.status = .passed ∨ result.status = .skipped)) →
      collection.score = .ofInt 0 ∧ collection.score.value = 0) ∧
    (∀ other : Collection, other.results.Perm collection.results →
      other.score = collection.score) ∧
    ∀ result : Result,
      (result.status = .passed ∨ result.status = .skipped →
        collection.score.value ≤ (collection.add result).score.value) ∧
      (result.status = .failed ∨ result.status = .warning ∨ result.status = .error →
        (collection.add result).score.value ≤ collection.score.value) := by
  refine ⟨⟨collection.isFinite_score, collection.score_nonneg, collection.score_le_hundred⟩, ?_, ?_,
    fun other => score_perm, fun result => ⟨?_, ?_⟩⟩
  · intro hall
    have hscore := score_of_isSuccess fun result hresult =>
      Result.isSuccess_iff.mpr (hall result hresult)
    exact ⟨hscore, hscore ▸ value_ofInt_hundred⟩
  · intro hsome hnone
    have hscore := score_of_not_isSuccess hsome fun result hresult =>
      Bool.eq_false_iff.mpr fun h => hnone result hresult (Result.isSuccess_iff.mp h)
    exact ⟨hscore, hscore ▸ value_ofInt_zero⟩
  · intro hstatus
    exact score_le_score_add (Result.isSuccess_iff.mpr hstatus)
  · intro hstatus
    refine score_add_le_score ?_
    rw [Result.isSuccess]
    rcases hstatus with h | h | h <;> rw [h] <;> rfl

end

/-- A run that passed and one that was skipped. -/
def twoSuccesses : Collection where
  results := [.ofStatus .passed (.text "raw-sql") (.text "Nothing found"),
    .ofStatus .skipped (.text "dependencies") (.text "Not relevant")]

/-- A run that failed. -/
def oneFailure : Result := .ofStatus .failed (.text "eval") (.text "Found 1")

/-- The two have a score of a hundred, in either order. A failure beside them does not raise it: it
is two thirds then. The failure alone has a score of zero. -/
theorem score_graded_twoSuccesses :
    twoSuccesses.score = .ofInt 100 ∧
      (⟨twoSuccesses.results.reverse⟩ : Collection).score = twoSuccesses.score ∧
      (twoSuccesses.add oneFailure).score.value ≤ twoSuccesses.score.value ∧
      (twoSuccesses.add oneFailure).score.text = "66.67" ∧
      (⟨[oneFailure]⟩ : Collection).score = .ofInt 0 := by
  obtain ⟨-, hall, -, horder, hadd⟩ := score_graded twoSuccesses
  obtain ⟨-, -, hnone, -, -⟩ := score_graded ⟨[oneFailure]⟩
  refine ⟨(hall ?_).1, horder _ (List.reverse_perm _), (hadd oneFailure).2 (.inl rfl), ?_,
    (hnone (List.cons_ne_nil _ _) ?_).1⟩
  · intro result hresult
    rcases List.mem_pair.mp hresult with rfl | rfl
    · exact .inl rfl
    · exact .inr rfl
  · decide +kernel
  · intro result hresult
    rw [List.mem_singleton.mp hresult]
    decide

end Collection

end PhpAudit.Report
