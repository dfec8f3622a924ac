import Mathlib.Algebra.Order.Field.Power
import Mathlib.Data.Rat.Cast.Order
import Mathlib.Tactic.Positivity
import Mathlib.Tactic.Ring
import PhpAudit.Number.Rounding

/-!
# Rounded quotients and binary logarithms

Bounds for a rounded quotient and for the logarithm of a quotient, in rational numbers, where a
quotient that is kept as a numerator and a denominator is one number, and a scaled quotient is the
quotient times a power (`scale_ratio`).
-/

namespace PhpAudit.Number

/-! ## Rounding to an integer -/

section roundDiv

variable {num den : Nat}

/-- Rounding goes to one of the two neighbours, and up only from the half on. -/
theorem roundDiv_cases (num den : Nat) :
    roundDiv num den = num / den ∨ roundDiv num den = num / den + 1 ∧ den ≤ 2 * (num % den) := by
  unfold roundDiv
  dsimp only
  split
  · exact .inl rfl
  · split
    · rcases Nat.mod_two_eq_zero_or_one (num / den) with heven | hodd
      · exact .inl (by omega)
      · exact .inr (by omega)
    · exact .inr (by omega)

/-- Rounding does not go below the quotient without its remainder. -/
theorem div_le_roundDiv (num den : Nat) : num / den ≤ roundDiv num den := by
  rcases roundDiv_cases num den with h | h <;> omega

/-- Rounding does not pass an integer that bounds the quotient. -/
theorem roundDiv_le {bound : Nat} (hden : 0 < den) (h : (num : ℚ) / den ≤ bound) :
    roundDiv num den ≤ bound := by
  have hden' : (0 : ℚ) < den := by exact_mod_cast hden
  have hnum : num ≤ den * bound := by
    rw [div_le_iff₀' hden'] at h
    exact_mod_cast h
  have hquotient : num / den ≤ bound := Nat.div_le_of_le_mul hnum
  rcases roundDiv_cases num den with hround | ⟨hround, hhalf⟩
  · omega
  · rw [hround, Nat.succ_le_iff]
    refine Nat.lt_of_le_of_ne hquotient ?_
    rintro rfl
    have := Nat.div_add_mod num den
    omega

/-- Rounding at most doubles a quotient. -/
theorem roundDiv_le_two_mul (hden : 0 < den) : (roundDiv num den : ℚ) ≤ 2 * (num / den) := by
  have hden' : (0 : ℚ) < den := by exact_mod_cast hden
  have hdivision := Nat.div_add_mod num den
  rw [Nat.mul_comm] at hdivision
  have hdouble : roundDiv num den * den ≤ 2 * num := by
    rcases roundDiv_cases num den with hround | ⟨hround, hhalf⟩
    · rw [hround]; omega
    · rw [hround, Nat.add_mul]; omega
  rw [← mul_div_assoc, le_div_iff₀ hden']
  exact_mod_cast hdouble

end roundDiv

/-! ## Scaling -/

/-- A scaled quotient is the quotient times the power. -/
theorem scale_ratio {base den : Nat} (hbase : 0 < base) (hden : 0 < den) (num : Nat)
    (exponent : Int) :
    0 < (scale base num den exponent).2 ∧
    ((scale base num den exponent).1 : ℚ) / (scale base num den exponent).2 =
      num / den * (base : ℚ) ^ exponent := by
  cases exponent with
  | ofNat n =>
    refine ⟨hden, ?_⟩
    simp only [scale, Int.ofNat_eq_natCast, zpow_natCast]
    push_cast [Nat.pow_eq]
    ring
  | negSucc n =>
    refine ⟨Nat.mul_pos hden (Nat.pow_pos hbase), ?_⟩
    simp only [scale, zpow_negSucc]
    push_cast [Nat.pow_eq]
    rw [div_mul_eq_div_div, div_eq_mul_inv _ ((base : ℚ) ^ (n + 1))]

/-! ## Logarithms -/

section floorLog2

variable {num den : Nat}

theorem zpow_log2_le (h : num ≠ 0) : (2 : ℚ) ^ (num.log2 : Int) ≤ num := by
  rw [zpow_natCast]
  exact_mod_cast Nat.log2_self_le h

theorem lt_zpow_log2 (num : Nat) : (num : ℚ) < 2 ^ ((num.log2 : Int) + 1) := by
  rw [← Nat.cast_succ, zpow_natCast]
  exact_mod_cast Nat.lt_log2_self

/-- The logarithm of a quotient is at least the difference of the logarithms less one. -/
theorem zpow_log2_sub_le (hnum : num ≠ 0) (hden : 0 < den) :
    (2 : ℚ) ^ ((num.log2 : Int) - den.log2 - 1) ≤ num / den := by
  have hden' : (0 : ℚ) < den := by exact_mod_cast hden
  rw [le_div_iff₀ hden']
  calc (2 : ℚ) ^ ((num.log2 : Int) - den.log2 - 1) * den
      ≤ 2 ^ ((num.log2 : Int) - den.log2 - 1) * 2 ^ ((den.log2 : Int) + 1) :=
        mul_le_mul_of_nonneg_left (lt_zpow_log2 den).le (by positivity)
    _ = 2 ^ (num.log2 : Int) := by rw [← zpow_add₀ two_ne_zero]; congr 1; omega
    _ ≤ num := zpow_log2_le hnum

/-- The logarithm of a quotient is at most the difference of the logarithms. -/
theorem lt_zpow_log2_sub (num : Nat) (hden : 0 < den) :
    (num : ℚ) / den < 2 ^ ((num.log2 : Int) - den.log2 + 1) := by
  have hden' : (0 : ℚ) < den := by exact_mod_cast hden
  rw [div_lt_iff₀ hden']
  calc (num : ℚ) < 2 ^ ((num.log2 : Int) + 1) := lt_zpow_log2 num
    _ = 2 ^ ((num.log2 : Int) - den.log2 + 1) * 2 ^ (den.log2 : Int) := by
        rw [← zpow_add₀ two_ne_zero]; congr 1; omega
    _ ≤ 2 ^ ((num.log2 : Int) - den.log2 + 1) * den :=
        mul_le_mul_of_nonneg_left (zpow_log2_le hden.ne') (by positivity)

/-- **The logarithm of a quotient.** A positive quotient lies between the power of two that its
logarithm names and the next one. -/
theorem floorLog2_spec (hnum : num ≠ 0) (hden : 0 < den) :
    (2 : ℚ) ^ floorLog2 num den ≤ num / den ∧ (num : ℚ) / den < 2 ^ (floorLog2 num den + 1) := by
  obtain ⟨hscaled, hratio⟩ := scale_ratio two_pos hden num
    (-((num.log2 : Int) - den.log2))
  have hscaled' : (0 : ℚ) < (scale 2 num den (-((num.log2 : Int) - den.log2))).2 := by
    exact_mod_cast hscaled
  have hpow : (0 : ℚ) < 2 ^ ((num.log2 : Int) - den.log2) := by positivity
  rw [Nat.cast_ofNat, zpow_neg, ← div_eq_mul_inv] at hratio
  unfold floorLog2
  dsimp only
  split
  next hle =>
    refine ⟨?_, lt_zpow_log2_sub num hden⟩
    rw [← one_le_div₀ hpow, ← hratio, one_le_div₀ hscaled']
    exact_mod_cast hle
  next hlt =>
    refine ⟨zpow_log2_sub_le hnum hden, ?_⟩
    rw [Int.sub_add_cancel, ← div_lt_one hpow, ← hratio, div_lt_one hscaled']
    exact_mod_cast Nat.not_le.mp hlt

end floorLog2

end PhpAudit.Number
