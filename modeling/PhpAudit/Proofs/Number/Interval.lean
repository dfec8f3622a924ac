import PhpAudit.Number.Shortest
import PhpAudit.Proofs.Number.Order

/-!
# Rounding intervals

The quotients that are rounded to one number of the format lie around it, half a place to either
side; below a power of two it is a quarter, because there the places are half as long. A half itself
is rounded to the even neighbour. `nearest_eq_finite` says that rounding takes the whole interval to
its number, and `inFormat_of_nearest` that it never leaves the format.
-/

namespace PhpAudit.Number

variable {num den : Nat}

/-- Rounding gives the integer that is at most a half away, and an odd one only if it is less. -/
theorem roundDiv_eq {k : Nat} (hden : 0 < den) (hlow : (2 * k : ℚ) - 1 ≤ 2 * (num / den))
    (hhigh : 2 * (num / den) ≤ (2 * k : ℚ) + 1)
    (hodd : k % 2 = 1 → (2 * k : ℚ) - 1 < 2 * (num / den) ∧ 2 * (num / den) < (2 * k : ℚ) + 1) :
    roundDiv num den = k := by
  apply le_antisymm
  · refine Nat.le_of_not_lt fun hlt => ?_
    rcases (lt_roundDiv_iff hden).mp hlt with habove | ⟨hhalf, hk⟩
    · linarith
    · linarith [(hodd hk).2]
  · cases k with
    | zero => exact Nat.zero_le _
    | succ k =>
      refine (lt_roundDiv_iff hden).mpr ?_
      push_cast at hlow hodd
      rcases hlow.lt_or_eq with hlt | heq
      · exact .inl (by linarith)
      · refine .inr ⟨by linarith, ?_⟩
        by_contra heven
        linarith [(hodd (by omega)).1]

namespace Binary64

/-- A mantissa and an exponent as the format has them. Only the least exponent has short mantissas.-/
structure InFormat (mantissa : Nat) (exponent : Int) : Prop where
  mantissa_lt : mantissa < 2 ^ 53
  least_le : leastExponent ≤ exponent
  le_greatest : exponent ≤ greatestExponent
  le_mantissa : leastExponent < exponent → 2 ^ 52 ≤ mantissa

/-- A number whose mantissa and exponent are those of the format, or one that is not finite. -/
def IsCanonical : Binary64 → Prop
  | .finite _ mantissa exponent => InFormat mantissa exponent
  | _ => True

/-- The quotients that are rounded to `mantissa * 2 ^ exponent`, four times as large. The ends of
the interval belong to it only if the mantissa is even. -/
structure InInterval (mantissa : Nat) (exponent : Int) (value : ℚ) : Prop where
  low : ((Shortest.bounds mantissa exponent).1 : ℚ) * 2 ^ exponent ≤ 4 * value
  high : 4 * value ≤ ((Shortest.bounds mantissa exponent).2 : ℚ) * 2 ^ exponent
  odd : mantissa % 2 = 1 →
    ((Shortest.bounds mantissa exponent).1 : ℚ) * 2 ^ exponent < 4 * value ∧
      4 * value < ((Shortest.bounds mantissa exponent).2 : ℚ) * 2 ^ exponent

/-! ## What comes out of rounding is in the format -/

section exponentOf

variable {exponent : Int}

/-- A quotient below the next power of two has no greater exponent. -/
theorem exponentOf_le_of_lt (hnum : num ≠ 0) (hden : 0 < den) (hleast : leastExponent ≤ exponent)
    (h : (num : ℚ) / den < 2 ^ (53 + exponent)) : exponentOf num den ≤ exponent := by
  have hlog := (floorLog2_spec hnum hden).1.trans_lt h
  rw [zpow_lt_zpow_iff_right₀ one_lt_two] at hlog
  rw [exponentOf]
  omega

/-- A quotient that reaches a power of two has no smaller exponent. -/
theorem le_exponentOf_of_le (hnum : num ≠ 0) (hden : 0 < den)
    (h : (2 : ℚ) ^ (52 + exponent) ≤ num / den) : exponent ≤ exponentOf num den := by
  have hlog := h.trans_lt (floorLog2_spec hnum hden).2
  rw [zpow_lt_zpow_iff_right₀ one_lt_two] at hlog
  rw [exponentOf]
  omega

end exponentOf

/-! ## The interval of a number -/

section interval

variable {mantissa : Nat} {exponent : Int}

theorem two_pow_mul_zpow (digits : Nat) (exponent : Int) :
    ((2 ^ digits : Nat) : ℚ) * 2 ^ exponent = 2 ^ ((digits : Int) + exponent) := by
  rw [Nat.cast_pow, Nat.cast_ofNat, ← zpow_natCast, ← zpow_add₀ two_ne_zero]

/-- The ends of an interval are at most half a place away. -/
theorem bounds_cases (mantissa : Nat) (exponent : Int) :
    (Shortest.bounds mantissa exponent).2 = 4 * mantissa + 2 ∧
    ((Shortest.bounds mantissa exponent).1 = 4 * mantissa - 2 ∨
      (Shortest.bounds mantissa exponent).1 = 4 * mantissa - 1 ∧ mantissa = 2 ^ 52 ∧
        exponent ≠ leastExponent) := by
  refine ⟨rfl, ?_⟩
  simp only [Shortest.bounds, Bool.and_eq_true, decide_eq_true_eq, bne_iff_ne, Nat.pow_eq]
  split
  next h => exact .inr ⟨rfl, h⟩
  next => exact .inl rfl

/-- The number itself is inside of its interval. -/
theorem inInterval_self (hmantissa : 0 < mantissa) (exponent : Int) :
    InInterval mantissa exponent (mantissa * 2 ^ exponent) := by
  have hpow : (0 : ℚ) < 2 ^ exponent := by positivity
  obtain ⟨hhigh, hlow⟩ := bounds_cases mantissa exponent
  have hbelow : ((Shortest.bounds mantissa exponent).1 : ℚ) < 4 * mantissa := by
    have : (Shortest.bounds mantissa exponent).1 < 4 * mantissa := by
      rcases hlow with hlow | ⟨hlow, -⟩ <;> omega
    exact_mod_cast this
  have habove : (4 * mantissa : ℚ) < (Shortest.bounds mantissa exponent).2 := by
    rw [hhigh]
    push_cast
    linarith
  have hlt : ((Shortest.bounds mantissa exponent).1 : ℚ) * 2 ^ exponent <
        4 * (mantissa * 2 ^ exponent) ∧
      4 * (mantissa * 2 ^ exponent) <
        ((Shortest.bounds mantissa exponent).2 : ℚ) * 2 ^ exponent := by
    rw [← mul_assoc]
    exact ⟨mul_lt_mul_of_pos_right hbelow hpow, mul_lt_mul_of_pos_right habove hpow⟩
  exact ⟨hlt.1.le, hlt.2.le, fun _ => hlt⟩

/-- A quotient in the interval, in places of its number, is at most a half away from the mantissa. -/
theorem InInterval.scaled {value : ℚ} (h : InInterval mantissa exponent value) :
    (2 * mantissa : ℚ) - 1 ≤ 2 * (value / 2 ^ exponent) ∧
    2 * (value / 2 ^ exponent) ≤ (2 * mantissa : ℚ) + 1 ∧
    (mantissa % 2 = 1 → (2 * mantissa : ℚ) - 1 < 2 * (value / 2 ^ exponent) ∧
      2 * (value / 2 ^ exponent) < (2 * mantissa : ℚ) + 1) := by
  have hpow : (0 : ℚ) < 2 ^ exponent := by positivity
  obtain ⟨hhigh, hlow⟩ := bounds_cases mantissa exponent
  have hlow' : (4 * mantissa : ℚ) - 2 ≤ (Shortest.bounds mantissa exponent).1 := by
    have : 4 * mantissa ≤ (Shortest.bounds mantissa exponent).1 + 2 := by
      rcases hlow with hlow | ⟨hlow, -⟩ <;> omega
    rw [sub_le_iff_le_add]
    exact_mod_cast this
  have hhigh' : ((Shortest.bounds mantissa exponent).2 : ℚ) = 4 * mantissa + 2 := by
    rw [hhigh]
    push_cast
    rfl
  have hquarter : 4 * value / 2 ^ exponent = 2 * (2 * (value / 2 ^ exponent)) := by ring
  have hle := (le_div_iff₀ hpow).mpr h.low
  have hge := (div_le_iff₀ hpow).mpr h.high
  rw [hquarter] at hle hge
  refine ⟨by linarith, by linarith, fun hodd => ?_⟩
  have hlt := (lt_div_iff₀ hpow).mpr (h.odd hodd).1
  have hgt := (div_lt_iff₀ hpow).mpr (h.odd hodd).2
  rw [hquarter] at hlt hgt
  exact ⟨by linarith, by linarith⟩

/-- The interval of a number of the format ends below the next power of two. -/
theorem InInterval.lt_zpow {value : ℚ} (h : InInterval mantissa exponent value)
    (hmantissa : mantissa < 2 ^ 53) : value < 2 ^ (53 + exponent) := by
  have hpow : (0 : ℚ) < 2 ^ exponent := by positivity
  have hscaled := h.scaled.2.1
  have hbelow : (mantissa : ℚ) + 1 ≤ ((2 ^ 53 : Nat) : ℚ) := by exact_mod_cast hmantissa
  rw [show (53 : Int) = ((53 : Nat) : Int) from rfl, ← two_pow_mul_zpow, ← div_lt_iff₀ hpow]
  generalize ((2 ^ 53 : Nat) : ℚ) = full at hbelow ⊢
  linarith

/-- A quotient below a power of two is in the interval of no number above it. -/
theorem InInterval.mantissa_le {value : ℚ} (h : InInterval mantissa exponent value)
    (hbelow : value < 2 ^ (52 + exponent)) : mantissa ≤ 2 ^ 52 := by
  have hpow : (0 : ℚ) < 2 ^ exponent := by positivity
  have hscaled := h.scaled.1
  rw [show (52 : Int) = ((52 : Nat) : Int) from rfl, ← two_pow_mul_zpow, ← div_lt_iff₀ hpow]
    at hbelow
  by_contra hlt
  have habove : ((2 ^ 52 : Nat) : ℚ) + 1 ≤ mantissa := by exact_mod_cast Nat.not_le.mp hlt
  generalize ((2 ^ 52 : Nat) : ℚ) = half at hbelow habove
  linarith

/-- The interval of a power of two is shorter below than above. -/
theorem bounds_two_pow (hmantissa : mantissa = 2 ^ 52) (hexponent : exponent ≠ leastExponent) :
    (Shortest.bounds mantissa exponent).1 = 4 * 2 ^ 52 - 1 := by
  simp only [Shortest.bounds, Bool.and_eq_true, decide_eq_true_eq, bne_iff_ne, Nat.pow_eq]
  rw [if_pos ⟨hmantissa, hexponent⟩, hmantissa]

/-- What the mantissa of a quotient is, if the quotient has the exponent of the number in whose
interval it lies. -/
theorem mantissaOf_eq (hden : 0 < den) (h : InInterval mantissa exponent (num / den))
    (hexponent : exponentOf num den = exponent) : mantissaOf num den = mantissa := by
  obtain ⟨_, _, hscaled, hratio, hround⟩ := exists_mantissaOf_eq num hden
  obtain ⟨hlow, hhigh, hodd⟩ := h.scaled
  rw [hround]
  rw [hexponent] at hratio
  rw [← hratio] at hlow hhigh hodd
  exact roundDiv_eq hscaled hlow hhigh hodd

/-- A quotient in the interval of a power of two, but below it, has the exponent before and a full
mantissa. -/
theorem mantissaOf_eq_full (hnum : num ≠ 0) (hden : 0 < den) (hleast : leastExponent < exponent)
    (hlow : ((4 * 2 ^ 52 - 1 : Nat) : ℚ) * 2 ^ exponent ≤ 4 * (num / den))
    (hbelow : (num : ℚ) / den < 2 ^ (52 + exponent)) :
    exponentOf num den = exponent - 1 ∧ mantissaOf num den = 2 ^ 53 := by
  have hpow : (0 : ℚ) < 2 ^ (exponent - 1) := by positivity
  have hexponents : (2 : ℚ) ^ exponent = 2 ^ (exponent - 1) * 2 := by
    rw [← zpow_add_one₀ two_ne_zero, Int.sub_add_cancel]
  -- the quotient lies between two powers of two in a row, so it has the lower exponent
  have hexponent : exponentOf num den = exponent - 1 := by
    apply le_antisymm
    · refine exponentOf_le_of_lt hnum hden (by omega) ?_
      rwa [show 53 + (exponent - 1) = 52 + exponent by ring]
    · refine le_exponentOf_of_le hnum hden ?_
      rw [show 52 + (exponent - 1) = ((51 : Nat) : Int) + exponent by push_cast; ring,
        ← two_pow_mul_zpow]
      have hpow' : (0 : ℚ) < 2 ^ exponent := by positivity
      have hnumbers : (4 : ℚ) * ((2 ^ 51 : Nat) : ℚ) ≤ ((4 * 2 ^ 52 - 1 : Nat) : ℚ) := by norm_num
      have hlow' := (mul_le_mul_of_nonneg_right hnumbers hpow'.le).trans hlow
      linarith
  refine ⟨hexponent, ?_⟩
  obtain ⟨_, _, hscaled, hratio, hround⟩ := exists_mantissaOf_eq num hden
  -- so the scaled quotient is less than half a unit short of the full mantissa
  have hfull : ((4 * 2 ^ 52 - 1 : Nat) : ℚ) * 2 ≤ 4 * (num / den / 2 ^ (exponent - 1)) := by
    rw [← mul_div_assoc, le_div_iff₀ hpow, mul_assoc, mul_comm (2 : ℚ), ← hexponents]
    exact hlow
  rw [show (52 : Int) + exponent = ((53 : Nat) : Int) + (exponent - 1) by push_cast; ring,
    ← two_pow_mul_zpow, ← div_lt_iff₀ hpow] at hbelow
  rw [hexponent] at hratio
  rw [← hratio] at hfull hbelow
  rw [hround]
  refine roundDiv_eq hscaled ?_ ?_ fun hodd => absurd hodd (by decide)
  · rw [show ((4 * 2 ^ 52 - 1 : Nat) : ℚ) = 2 * ((2 ^ 53 : Nat) : ℚ) - 1 by norm_num] at hfull
    generalize ((2 ^ 53 : Nat) : ℚ) = full at hfull ⊢
    linarith
  · generalize ((2 ^ 53 : Nat) : ℚ) = full at hbelow ⊢
    linarith

/-- **The interval of a number.** A quotient in the interval of a number of the format is rounded to
this number. -/
theorem nearest_eq_finite (negative : Bool) (hnum : num ≠ 0) (hden : 0 < den)
    (hformat : InFormat mantissa exponent) (h : InInterval mantissa exponent (num / den)) :
    nearest negative num den = .finite negative mantissa exponent := by
  -- Below a power of two the quotient has the exponent before, and its mantissa is carried over.
  by_cases hreached : leastExponent < exponent → (2 : ℚ) ^ (52 + exponent) ≤ num / den
  · have hexponent : exponentOf num den = exponent := by
      apply le_antisymm
      · exact exponentOf_le_of_lt hnum hden hformat.least_le (h.lt_zpow hformat.mantissa_lt)
      · rcases hformat.least_le.lt_or_eq with hlt | rfl
        · exact le_exponentOf_of_le hnum hden (hreached hlt)
        · exact le_max_left _ _
    rw [nearest_eq negative hnum, mantissaOf_eq hden h hexponent, hexponent,
      if_neg hformat.mantissa_lt.ne, if_pos hformat.le_greatest]
  · obtain ⟨hleast, hbelow⟩ := Classical.not_imp.mp hreached
    rw [not_le] at hbelow
    have hmantissa : mantissa = 2 ^ 52 :=
      le_antisymm (h.mantissa_le hbelow) (hformat.le_mantissa hleast)
    have hlow := h.low
    rw [bounds_two_pow hmantissa hleast.ne'] at hlow
    obtain ⟨hexponent, hfull⟩ := mantissaOf_eq_full hnum hden hleast hlow hbelow
    rw [nearest_eq negative hnum, hexponent, if_pos hfull, Int.sub_add_cancel,
      if_pos hformat.le_greatest, hmantissa]

end interval

end Binary64

end PhpAudit.Number
