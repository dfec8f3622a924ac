import PhpAudit.Number.Binary64
import PhpAudit.Proofs.Number.Rounding

/-!
# The range of the format

Rounding a quotient gives a finite number unless the quotient is above the greatest number of the
format, and a finite number that comes out of rounding never is (`nearest_spec`). So it is enough
to bound the exact result of an operation to know that the operation does not leave the format.
-/

namespace PhpAudit.Number.Binary64

/-- The greatest number of the format. -/
def greatest : ℚ := ((2 ^ 53 - 1 : Nat) : ℚ) * 2 ^ greatestExponent

/-- The magnitude of a number; what is not finite has none. -/
def magnitude : Binary64 → ℚ
  | .finite _ mantissa exponent => mantissa * 2 ^ exponent
  | _ => 0

theorem magnitude_nonneg (x : Binary64) : 0 ≤ x.magnitude := by
  cases x with
  | nan => exact le_refl (0 : ℚ)
  | infinite => exact le_refl (0 : ℚ)
  | finite => rw [magnitude]; positivity

/-- Small numbers are below the greatest. -/
theorem le_greatest {n : Nat} (h : n ≤ 2 ^ 53 - 1) : (n : ℚ) ≤ greatest := by
  have hn : (n : ℚ) ≤ ((2 ^ 53 - 1 : Nat) : ℚ) := by exact_mod_cast h
  exact hn.trans (le_mul_of_one_le_right (Nat.cast_nonneg _)
    (one_le_zpow₀ one_le_two (by decide)))

theorem greatest_nonneg : 0 ≤ greatest := by
  simpa using le_greatest (Nat.zero_le (2 ^ 53 - 1))

/-- The greatest number is an integer. -/
theorem exists_natCast_eq_greatest : ∃ n : Nat, (n : ℚ) = greatest := by
  obtain ⟨exponent, hexponent⟩ := Int.eq_ofNat_of_zero_le (by decide : 0 ≤ greatestExponent)
  refine ⟨(2 ^ 53 - 1) * 2 ^ exponent, ?_⟩
  rw [greatest, hexponent, zpow_natCast, Nat.cast_mul, Nat.cast_pow, Nat.cast_ofNat]

/-! ## Rounding -/

section nearest

variable {num den : Nat}

/-- The exponent of a quotient leaves room for 53 digits. -/
theorem lt_zpow_exponentOf (hnum : num ≠ 0) (hden : 0 < den) :
    (num : ℚ) / den < ((2 ^ 53 : Nat) : ℚ) * 2 ^ exponentOf num den := by
  rw [Nat.cast_pow, Nat.cast_ofNat, ← zpow_natCast, ← zpow_add₀ two_ne_zero]
  refine (floorLog2_spec hnum hden).2.trans_le (zpow_le_zpow_right₀ one_le_two ?_)
  rw [exponentOf]
  omega

/-- A quotient up to the greatest number has an exponent up to the greatest one. -/
theorem exponentOf_le (hnum : num ≠ 0) (hden : 0 < den) (h : (num : ℚ) / den ≤ greatest) :
    exponentOf num den ≤ greatestExponent := by
  have hlog : (2 : ℚ) ^ floorLog2 num den < ((2 ^ 53 : Nat) : ℚ) * 2 ^ greatestExponent := by
    refine ((floorLog2_spec hnum hden).1.trans h).trans_lt ?_
    rw [greatest]
    refine mul_lt_mul_of_pos_right ?_ (by positivity)
    exact_mod_cast Nat.sub_lt (Nat.pow_pos two_pos) one_pos
  rw [Nat.cast_pow, Nat.cast_ofNat, ← zpow_natCast, ← zpow_add₀ two_ne_zero,
    zpow_lt_zpow_iff_right₀ one_lt_two] at hlog
  rw [exponentOf, leastExponent]
  rw [greatestExponent] at hlog ⊢
  omega

/-- **What rounding gives.** The mantissa has at most 53 digits, the result is at most twice the
quotient, and it is finite if the quotient is not above the greatest number. -/
theorem nearest_spec (negative : Bool) (hnum : num ≠ 0) (hden : 0 < den) :
    ∃ mantissa exponent,
      nearest negative num den = (if exponent ≤ greatestExponent then
        .finite negative mantissa exponent else .infinite negative) ∧
      mantissa ≤ 2 ^ 53 - 1 ∧
      (mantissa : ℚ) * 2 ^ exponent ≤ 2 * (num / den) ∧
      ((num : ℚ) / den ≤ greatest → exponent ≤ greatestExponent) := by
  obtain ⟨hscaled, hratio⟩ := scale_ratio two_pos hden num (-exponentOf num den)
  have hpow : (0 : ℚ) < 2 ^ exponentOf num den := by positivity
  rw [Nat.cast_ofNat, zpow_neg, ← div_eq_mul_inv] at hratio
  obtain ⟨num', den', hscale⟩ : ∃ num' den', scale 2 num den (-exponentOf num den) = (num', den') :=
    ⟨_, _, rfl⟩
  rw [hscale] at hscaled hratio
  have hmantissa : roundDiv num' den' ≤ 2 ^ 53 := by
    refine roundDiv_le hscaled ?_
    rw [hratio, div_le_iff₀ hpow]
    exact (lt_zpow_exponentOf hnum hden).le
  have hvalue : (roundDiv num' den' : ℚ) * 2 ^ exponentOf num den ≤ 2 * (num / den) := by
    rw [← le_div_iff₀ hpow, mul_div_assoc, ← hratio]
    exact roundDiv_le_two_mul hscaled
  rw [nearest, if_neg hnum]
  simp only [hscale, Nat.pow_eq]
  by_cases hfull : roundDiv num' den' = 2 ^ 53
  · -- The mantissa is rounded up to a power of two, which the next exponent writes.
    refine ⟨2 ^ 52, exponentOf num den + 1, by rw [if_pos hfull], by decide, ?_, fun hle => ?_⟩
    · rw [zpow_add_one₀ two_ne_zero]
      calc ((2 ^ 52 : Nat) : ℚ) * (2 ^ exponentOf num den * 2)
          = ((2 ^ 53 : Nat) : ℚ) * 2 ^ exponentOf num den := by push_cast; ring
        _ ≤ 2 * (num / den) := by rwa [← hfull]
    · refine Int.add_one_le_of_lt (lt_of_le_of_ne (exponentOf_le hnum hden hle) fun heq => ?_)
      have hbelow : roundDiv num' den' ≤ 2 ^ 53 - 1 := by
        refine roundDiv_le hscaled ?_
        rwa [hratio, div_le_iff₀ hpow, heq, ← greatest]
      omega
  · refine ⟨roundDiv num' den', exponentOf num den, by rw [if_neg hfull], by omega, hvalue,
      exponentOf_le hnum hden⟩

/-- A quotient that is not above the greatest number is rounded to a finite number. -/
theorem isFinite_nearest (negative : Bool) (hden : 0 < den) (h : (num : ℚ) / den ≤ greatest) :
    (nearest negative num den).isFinite = true := by
  by_cases hnum : num = 0
  · rw [nearest, if_pos hnum]
    rfl
  · obtain ⟨mantissa, exponent, heq, -, -, hfinite⟩ := nearest_spec negative hnum hden
    rw [heq, if_pos (hfinite h)]
    rfl

theorem magnitude_zero (negative : Bool) : magnitude (zero negative) = 0 := by
  rw [zero, magnitude, Nat.cast_zero, zero_mul]

/-- Rounding does not give a number above the greatest. -/
theorem magnitude_nearest_le (negative : Bool) (hden : 0 < den) :
    magnitude (nearest negative num den) ≤ greatest := by
  by_cases hnum : num = 0
  · rw [nearest, if_pos hnum, magnitude_zero]
    exact greatest_nonneg
  · obtain ⟨mantissa, exponent, heq, hmantissa, -, -⟩ := nearest_spec negative hnum hden
    rw [heq]
    split
    next hle =>
      rw [magnitude, greatest]
      exact mul_le_mul (by exact_mod_cast hmantissa) (zpow_le_zpow_right₀ one_le_two hle)
        (by positivity) (by positivity)
    next => exact greatest_nonneg

/-- Rounding at most doubles a quotient. -/
theorem magnitude_nearest_le_two_mul (negative : Bool) (hden : 0 < den) :
    magnitude (nearest negative num den) ≤ 2 * (num / den) := by
  by_cases hnum : num = 0
  · rw [nearest, if_pos hnum, magnitude_zero]
    positivity
  · obtain ⟨mantissa, exponent, heq, -, hvalue, -⟩ := nearest_spec negative hnum hden
    rw [heq]
    split
    next => exact hvalue
    next =>
      change (0 : ℚ) ≤ _
      positivity

end nearest

/-! ## Operations -/

/-- The quotient of a finite number is its magnitude. -/
theorem quotient_ratio (mantissa : Nat) (exponent : Int) :
    0 < (quotient mantissa exponent).2 ∧
    ((quotient mantissa exponent).1 : ℚ) / (quotient mantissa exponent).2 =
      mantissa * 2 ^ exponent := by
  obtain ⟨hden, hratio⟩ := scale_ratio (two_pos : 0 < 2) one_pos mantissa exponent
  refine ⟨hden, ?_⟩
  rw [quotient, hratio, Nat.cast_one, div_one, Nat.cast_ofNat]

/-- A product is finite if the exact product is not above the greatest number. -/
theorem isFinite_mul {x y : Binary64} (hx : x.isFinite = true) (hy : y.isFinite = true)
    (h : x.magnitude * y.magnitude ≤ greatest) :
    (x.mul y).isFinite = true ∧ (x.mul y).magnitude ≤ greatest := by
  cases x with
  | nan => cases hx
  | infinite => cases hx
  | finite negative₁ mantissa₁ exponent₁ =>
    cases y with
    | nan => cases hy
    | infinite => cases hy
    | finite negative₂ mantissa₂ exponent₂ =>
      obtain ⟨hden, hratio⟩ := quotient_ratio (mantissa₁ * mantissa₂) (exponent₁ + exponent₂)
      change (nearest (negative₁ != negative₂) (quotient _ _).1 (quotient _ _).2).isFinite = true ∧
        (nearest (negative₁ != negative₂) (quotient _ _).1 (quotient _ _).2).magnitude ≤ greatest
      refine ⟨isFinite_nearest _ hden ?_, magnitude_nearest_le _ hden⟩
      rw [hratio, Nat.cast_mul, zpow_add₀ two_ne_zero, mul_mul_mul_comm]
      exact h

/-- Rounding a number of the format to decimal places stays in the format. -/
theorem isFinite_roundTo {x : Binary64} (places : Nat) (hx : x.isFinite = true)
    (h : x.magnitude ≤ greatest) : (x.roundTo places).isFinite = true := by
  cases x with
  | nan => cases hx
  | infinite => cases hx
  | finite negative mantissa exponent =>
    obtain ⟨hden, hratio⟩ := quotient_ratio mantissa exponent
    have hpow : 0 < 10 ^ places := Nat.pow_pos (by decide)
    have hpow' : (0 : ℚ) < ((10 ^ places : Nat) : ℚ) := by exact_mod_cast hpow
    obtain ⟨bound, hbound⟩ := exists_natCast_eq_greatest
    have hrounded : roundDiv ((quotient mantissa exponent).1 * 10 ^ places)
        (quotient mantissa exponent).2 ≤ bound * 10 ^ places := by
      refine roundDiv_le hden ?_
      rw [Nat.cast_mul, Nat.cast_mul, mul_div_right_comm, hratio, hbound]
      exact mul_le_mul_of_nonneg_right h hpow'.le
    change (nearest negative (roundDiv ((quotient mantissa exponent).1 * 10 ^ places)
      (quotient mantissa exponent).2) (10 ^ places)).isFinite = true
    refine isFinite_nearest negative hpow ?_
    rw [div_le_iff₀ hpow', ← hbound]
    exact_mod_cast hrounded

end PhpAudit.Number.Binary64
