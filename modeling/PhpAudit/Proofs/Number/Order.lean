import Mathlib.Tactic.Linarith
import PhpAudit.Proofs.Number.Range

/-!
# Rounding keeps order

Of two quotients the smaller one is rounded to the smaller number, to an integer (`roundDiv_mono`)
and to a number of the format (`magnitude_nearest_mono`). Within one exponent the second follows from
the first; from one exponent to the next it holds because the mantissas of the smaller end where
those of the greater begin. Every operation rounds an exact result once, so that operations keep the
order that their exact results have.
-/

namespace PhpAudit.Number

variable {num den num₁ den₁ num₂ den₂ : Nat}

/-! ## Rounding to an integer -/

/-- Rounding passes an integer from the next half on; at the half itself only if the integer is
odd. -/
theorem lt_roundDiv_iff (hden : 0 < den) {k : Nat} :
    k < roundDiv num den ↔
      (2 * k + 1 : ℚ) < 2 * (num / den) ∨ (2 * k + 1 : ℚ) = 2 * (num / den) ∧ k % 2 = 1 := by
  have hden' : (0 : ℚ) < den := by exact_mod_cast hden
  have hlt : (2 * k + 1 : ℚ) < 2 * (num / den) ↔ (2 * k + 1) * den < 2 * num := by
    rw [← mul_div_assoc, lt_div_iff₀ hden']
    exact_mod_cast Iff.rfl
  have heq : (2 * k + 1 : ℚ) = 2 * (num / den) ↔ (2 * k + 1) * den = 2 * num := by
    rw [← mul_div_assoc, eq_div_iff hden'.ne']
    exact_mod_cast Iff.rfl
  have hrest := Nat.mod_lt num hden
  have hnum : 2 * num = 2 * (num / den * den) + 2 * (num % den) := by
    rw [← Nat.mul_add, Nat.div_add_mod']
  rw [hlt, heq, hnum, Nat.add_mul, Nat.mul_assoc, Nat.one_mul]
  rcases Nat.lt_trichotomy k (num / den) with hbelow | rfl | habove
  · have hle : (k + 1) * den ≤ num / den * den := Nat.mul_le_mul_right den hbelow
    rw [Nat.add_mul] at hle
    refine iff_of_true (hbelow.trans_le (div_le_roundDiv num den)) (.inl ?_)
    omega
  · unfold roundDiv
    dsimp only
    split
    · omega
    · split <;> omega
  · have hle : (num / den + 1) * den ≤ k * den := Nat.mul_le_mul_right den habove
    rw [Nat.add_mul] at hle
    refine iff_of_false ?_ ?_
    · rcases roundDiv_cases num den with hround | ⟨hround, -⟩ <;> omega
    · omega

/-- Rounding to an integer keeps the order of quotients. -/
theorem roundDiv_mono (hden₁ : 0 < den₁) (hden₂ : 0 < den₂)
    (h : (num₁ : ℚ) / den₁ ≤ num₂ / den₂) : roundDiv num₁ den₁ ≤ roundDiv num₂ den₂ := by
  refine le_of_forall_lt fun k hk => ?_
  rw [lt_roundDiv_iff hden₁] at hk
  rw [lt_roundDiv_iff hden₂]
  rcases hk with hlt | ⟨heq, hodd⟩
  · exact .inl (by linarith)
  · rcases h.lt_or_eq with hlt | hsame
    · exact .inl (by linarith)
    · exact .inr ⟨by rw [heq, hsame], hodd⟩

/-- A multiple of the denominator is divided exactly. -/
theorem roundDiv_mul_left (hden : 0 < den) (k : Nat) : roundDiv (den * k) den = k := by
  rw [roundDiv, Nat.mul_div_cancel_left k hden, Nat.mul_mod_right, if_pos hden]

/-- Rounding does not go below an integer that the quotient reaches. -/
theorem le_roundDiv {bound : Nat} (hden : 0 < den) (h : (bound : ℚ) ≤ num / den) :
    bound ≤ roundDiv num den := by
  calc bound = roundDiv (1 * bound) 1 := (roundDiv_mul_left one_pos bound).symm
    _ ≤ roundDiv num den := roundDiv_mono one_pos hden (by simpa using h)

/-! ## Exponents -/

/-- Logarithms keep the order of quotients. -/
theorem floorLog2_mono (hnum₁ : num₁ ≠ 0) (hden₁ : 0 < den₁) (hnum₂ : num₂ ≠ 0) (hden₂ : 0 < den₂)
    (h : (num₁ : ℚ) / den₁ ≤ num₂ / den₂) : floorLog2 num₁ den₁ ≤ floorLog2 num₂ den₂ := by
  have hlt := ((floorLog2_spec hnum₁ hden₁).1.trans h).trans_lt (floorLog2_spec hnum₂ hden₂).2
  exact Int.lt_add_one_iff.mp ((zpow_lt_zpow_iff_right₀ one_lt_two).mp hlt)

namespace Binary64

theorem exponentOf_mono (hnum₁ : num₁ ≠ 0) (hden₁ : 0 < den₁) (hnum₂ : num₂ ≠ 0)
    (hden₂ : 0 < den₂) (h : (num₁ : ℚ) / den₁ ≤ num₂ / den₂) :
    exponentOf num₁ den₁ ≤ exponentOf num₂ den₂ := by
  have hlog := floorLog2_mono hnum₁ hden₁ hnum₂ hden₂ h
  rw [exponentOf, exponentOf]
  omega

/-- Above the least exponent the mantissas of a quotient begin with `2 ^ 52`. -/
theorem zpow_exponentOf_le (hnum : num ≠ 0) (hden : 0 < den)
    (h : leastExponent < exponentOf num den) :
    ((2 ^ 52 : Nat) : ℚ) * 2 ^ exponentOf num den ≤ num / den := by
  have hexponent : floorLog2 num den = 52 + exponentOf num den := by
    rw [exponentOf] at h ⊢
    omega
  have hlog := (floorLog2_spec hnum hden).1
  rw [hexponent, zpow_add₀ two_ne_zero] at hlog
  exact_mod_cast hlog

/-! ## Rounding to the format -/

/-- The mantissa of a quotient under its exponent, before a carry is taken to the next one. -/
def mantissaOf (num den : Nat) : Nat :=
  let (num', den') := scale 2 num den (-exponentOf num den)
  roundDiv num' den'

/-- The mantissa is the quotient in units of its exponent, rounded. -/
theorem exists_mantissaOf_eq (num : Nat) (hden : 0 < den) :
    ∃ num' den' : Nat, 0 < den' ∧ (num' : ℚ) / den' = num / den / 2 ^ exponentOf num den ∧
      mantissaOf num den = roundDiv num' den' := by
  obtain ⟨hscaled, hratio⟩ := scale_ratio two_pos hden num (-exponentOf num den)
  rw [Nat.cast_ofNat, zpow_neg, ← div_eq_mul_inv] at hratio
  exact ⟨_, _, hscaled, hratio, rfl⟩

/-- Under one exponent mantissas keep the order of quotients. -/
theorem mantissaOf_mono (hden₁ : 0 < den₁) (hden₂ : 0 < den₂)
    (hexponent : exponentOf num₁ den₁ = exponentOf num₂ den₂)
    (h : (num₁ : ℚ) / den₁ ≤ num₂ / den₂) : mantissaOf num₁ den₁ ≤ mantissaOf num₂ den₂ := by
  obtain ⟨_, _, hscaled₁, hratio₁, hmantissa₁⟩ := exists_mantissaOf_eq num₁ hden₁
  obtain ⟨_, _, hscaled₂, hratio₂, hmantissa₂⟩ := exists_mantissaOf_eq num₂ hden₂
  rw [hmantissa₁, hmantissa₂]
  refine roundDiv_mono hscaled₁ hscaled₂ ?_
  rw [hratio₁, hratio₂, hexponent]
  exact div_le_div_of_nonneg_right h (by positivity)

theorem mantissaOf_le (hnum : num ≠ 0) (hden : 0 < den) : mantissaOf num den ≤ 2 ^ 53 := by
  obtain ⟨_, _, hscaled, hratio, hmantissa⟩ := exists_mantissaOf_eq num hden
  rw [hmantissa]
  refine roundDiv_le hscaled ?_
  rw [hratio, div_le_iff₀ (by positivity)]
  exact (lt_zpow_exponentOf hnum hden).le

theorem le_mantissaOf (hnum : num ≠ 0) (hden : 0 < den)
    (h : leastExponent < exponentOf num den) : 2 ^ 52 ≤ mantissaOf num den := by
  obtain ⟨_, _, hscaled, hratio, hmantissa⟩ := exists_mantissaOf_eq num hden
  rw [hmantissa]
  refine le_roundDiv hscaled ?_
  rw [hratio, le_div_iff₀ (by positivity)]
  exact zpow_exponentOf_le hnum hden h

/-- Rounding in terms of the mantissa and the exponent: a full mantissa is carried over. -/
theorem nearest_eq (negative : Bool) (hnum : num ≠ 0) :
    nearest negative num den =
      if mantissaOf num den = 2 ^ 53 then
        if exponentOf num den + 1 ≤ greatestExponent then
          .finite negative (2 ^ 52) (exponentOf num den + 1)
        else .infinite negative
      else if exponentOf num den ≤ greatestExponent then
        .finite negative (mantissaOf num den) (exponentOf num den)
      else .infinite negative := by
  have hmantissa : roundDiv (scale 2 num den (-exponentOf num den)).1
      (scale 2 num den (-exponentOf num den)).2 = mantissaOf num den := rfl
  rw [nearest, if_neg hnum]
  simp only [hmantissa, Nat.pow_eq]
  split <;> rfl

/-- What a quotient in the range is rounded to. -/
theorem magnitude_nearest (negative : Bool) (hnum : num ≠ 0) (hden : 0 < den)
    (h : (num : ℚ) / den ≤ greatest) :
    (nearest negative num den).magnitude = mantissaOf num den * 2 ^ exponentOf num den := by
  have hfinite := isFinite_nearest negative hden h
  rw [nearest_eq negative hnum] at hfinite ⊢
  by_cases hcarry : mantissaOf num den = 2 ^ 53
  · rw [if_pos hcarry] at hfinite ⊢
    split at hfinite
    next hle =>
      rw [if_pos hle, magnitude, hcarry, zpow_add_one₀ two_ne_zero]
      push_cast
      ring
    next => cases hfinite
  · rw [if_neg hcarry] at hfinite ⊢
    split at hfinite
    next hle => rw [if_pos hle, magnitude]
    next => cases hfinite

/-- Rounding sees the quotient only, not how it is written. -/
theorem nearest_congr (negative : Bool) (hnum₁ : num₁ ≠ 0) (hden₁ : 0 < den₁) (hnum₂ : num₂ ≠ 0)
    (hden₂ : 0 < den₂) (h : (num₁ : ℚ) / den₁ = num₂ / den₂) :
    nearest negative num₁ den₁ = nearest negative num₂ den₂ := by
  have hexponent : exponentOf num₁ den₁ = exponentOf num₂ den₂ :=
    le_antisymm (exponentOf_mono hnum₁ hden₁ hnum₂ hden₂ h.le)
      (exponentOf_mono hnum₂ hden₂ hnum₁ hden₁ h.ge)
  have hmantissa : mantissaOf num₁ den₁ = mantissaOf num₂ den₂ :=
    le_antisymm (mantissaOf_mono hden₁ hden₂ hexponent h.le)
      (mantissaOf_mono hden₂ hden₁ hexponent.symm h.ge)
  rw [nearest_eq negative hnum₁, nearest_eq negative hnum₂, hexponent, hmantissa]

/-- **Rounding keeps order.** Of two quotients in the range the smaller one is not rounded to a
greater number. -/
theorem magnitude_nearest_mono (negative₁ negative₂ : Bool) (hden₁ : 0 < den₁) (hden₂ : 0 < den₂)
    (h : (num₁ : ℚ) / den₁ ≤ num₂ / den₂) (hgreatest : (num₂ : ℚ) / den₂ ≤ greatest) :
    (nearest negative₁ num₁ den₁).magnitude ≤ (nearest negative₂ num₂ den₂).magnitude := by
  by_cases hnum₁ : num₁ = 0
  · rw [nearest, if_pos hnum₁, magnitude_zero]
    exact magnitude_nonneg _
  · have hnum₂ : num₂ ≠ 0 := by
      rintro rfl
      rw [Nat.cast_zero, zero_div] at h
      refine absurd h (not_le_of_gt (div_pos ?_ (by exact_mod_cast hden₁)))
      exact_mod_cast Nat.pos_of_ne_zero hnum₁
    rw [magnitude_nearest negative₁ hnum₁ hden₁ (h.trans hgreatest),
      magnitude_nearest negative₂ hnum₂ hden₂ hgreatest]
    -- with equal exponents the mantissas decide; otherwise the exponents outweigh them
    rcases (exponentOf_mono hnum₁ hden₁ hnum₂ hden₂ h).lt_or_eq with hlt | heq
    · have hleast : leastExponent ≤ exponentOf num₁ den₁ := le_max_left _ _
      calc (mantissaOf num₁ den₁ : ℚ) * 2 ^ exponentOf num₁ den₁
          ≤ ((2 ^ 53 : Nat) : ℚ) * 2 ^ exponentOf num₁ den₁ :=
            mul_le_mul_of_nonneg_right (by exact_mod_cast mantissaOf_le hnum₁ hden₁)
              (by positivity)
        _ = ((2 ^ 52 : Nat) : ℚ) * 2 ^ (exponentOf num₁ den₁ + 1) := by
            rw [zpow_add_one₀ two_ne_zero]
            push_cast
            ring
        _ ≤ mantissaOf num₂ den₂ * 2 ^ exponentOf num₂ den₂ :=
            mul_le_mul
              (by exact_mod_cast le_mantissaOf hnum₂ hden₂ (hleast.trans_lt hlt))
              (zpow_le_zpow_right₀ one_le_two (Int.add_one_le_of_lt hlt)) (by positivity)
              (by positivity)
    · rw [heq]
      refine mul_le_mul_of_nonneg_right ?_ (by positivity)
      exact_mod_cast mantissaOf_mono hden₁ hden₂ heq h

/-! ## Operations -/

/-- Whether a number has the negative sign. -/
def isNegative : Binary64 → Bool
  | .nan => false
  | .infinite negative => negative
  | .finite negative _ _ => negative

/-- The value of a finite number. -/
def value (x : Binary64) : ℚ := if x.isNegative then -x.magnitude else x.magnitude

theorem value_of_not_isNegative {x : Binary64} (h : x.isNegative = false) :
    x.value = x.magnitude := by
  rw [value, h, if_neg Bool.false_ne_true]

theorem isNegative_nearest (negative : Bool) (num den : Nat) :
    (nearest negative num den).isNegative = negative := by
  by_cases hnum : num = 0
  · rw [nearest, if_pos hnum]
    rfl
  · rw [nearest_eq negative hnum]
    split <;> split <;> rfl

/-- A product is the exact one, rounded. -/
theorem exists_mul_eq_nearest {x y : Binary64} (hx : x.isFinite = true) (hy : y.isFinite = true) :
    ∃ num den : Nat, 0 < den ∧ (num : ℚ) / den = x.magnitude * y.magnitude ∧
      x.mul y = nearest (x.isNegative != y.isNegative) num den := by
  cases x with
  | nan => cases hx
  | infinite => cases hx
  | finite negative₁ mantissa₁ exponent₁ =>
    cases y with
    | nan => cases hy
    | infinite => cases hy
    | finite negative₂ mantissa₂ exponent₂ =>
      obtain ⟨hden, hratio⟩ := quotient_ratio (mantissa₁ * mantissa₂) (exponent₁ + exponent₂)
      refine ⟨(quotient (mantissa₁ * mantissa₂) (exponent₁ + exponent₂)).1, _, hden, ?_, rfl⟩
      rw [hratio, Nat.cast_mul, zpow_add₀ two_ne_zero, mul_mul_mul_comm]
      rfl

/-- A number rounded to decimal places is the nearest one to a decimal that is nearest to it. -/
theorem exists_roundTo_eq_nearest {x : Binary64} (places : Nat) (hx : x.isFinite = true) :
    ∃ num den : Nat, 0 < den ∧ (num : ℚ) / den = x.magnitude * (10 ^ places : Nat) ∧
      x.roundTo places = nearest x.isNegative (roundDiv num den) (10 ^ places) := by
  cases x with
  | nan => cases hx
  | infinite => cases hx
  | finite negative mantissa exponent =>
    obtain ⟨hden, hratio⟩ := quotient_ratio mantissa exponent
    refine ⟨(quotient mantissa exponent).1 * 10 ^ places, _, hden, ?_, rfl⟩
    rw [Nat.cast_mul, mul_div_right_comm, hratio]
    rfl

/-- Multiplying by the same number keeps the order of magnitudes. -/
theorem magnitude_mul_mono {x y z : Binary64} (hx : x.isFinite = true) (hy : y.isFinite = true)
    (hz : z.isFinite = true) (h : x.magnitude ≤ y.magnitude)
    (hgreatest : y.magnitude * z.magnitude ≤ greatest) :
    (x.mul z).magnitude ≤ (y.mul z).magnitude := by
  obtain ⟨num₁, den₁, hden₁, hratio₁, hmul₁⟩ := exists_mul_eq_nearest hx hz
  obtain ⟨num₂, den₂, hden₂, hratio₂, hmul₂⟩ := exists_mul_eq_nearest hy hz
  rw [hmul₁, hmul₂]
  refine magnitude_nearest_mono _ _ hden₁ hden₂ ?_ (hratio₂.trans_le hgreatest)
  rw [hratio₁, hratio₂]
  exact mul_le_mul_of_nonneg_right h (magnitude_nonneg z)

/-- Rounding to decimal places keeps the order of magnitudes. -/
theorem magnitude_roundTo_mono {x y : Binary64} (places : Nat) (hx : x.isFinite = true)
    (hy : y.isFinite = true) (h : x.magnitude ≤ y.magnitude) (hgreatest : y.magnitude ≤ greatest) :
    (x.roundTo places).magnitude ≤ (y.roundTo places).magnitude := by
  obtain ⟨num₁, den₁, hden₁, hratio₁, hround₁⟩ := exists_roundTo_eq_nearest places hx
  obtain ⟨num₂, den₂, hden₂, hratio₂, hround₂⟩ := exists_roundTo_eq_nearest places hy
  have hpow : 0 < 10 ^ places := Nat.pow_pos (by decide)
  have hpow' : (0 : ℚ) < ((10 ^ places : Nat) : ℚ) := by exact_mod_cast hpow
  have hround : roundDiv num₁ den₁ ≤ roundDiv num₂ den₂ := by
    refine roundDiv_mono hden₁ hden₂ ?_
    rw [hratio₁, hratio₂]
    exact mul_le_mul_of_nonneg_right h hpow'.le
  -- the decimal does not pass the greatest number, which is an integer
  obtain ⟨bound, hbound⟩ := exists_natCast_eq_greatest
  have hrounded : roundDiv num₂ den₂ ≤ bound * 10 ^ places := by
    refine roundDiv_le hden₂ ?_
    rw [hratio₂, Nat.cast_mul, hbound]
    exact mul_le_mul_of_nonneg_right hgreatest hpow'.le
  rw [hround₁, hround₂]
  refine magnitude_nearest_mono _ _ hpow hpow ?_ ?_
  · exact div_le_div_of_nonneg_right (by exact_mod_cast hround) hpow'.le
  · rw [div_le_iff₀ hpow', ← hbound]
    exact_mod_cast hrounded

end Binary64

end PhpAudit.Number
