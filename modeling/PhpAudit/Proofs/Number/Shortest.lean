import PhpAudit.Proofs.Number.Interval

/-!
# The shortest decimal is in the interval of its number

Whatever grid the search for a decimal ends on, the decimal lies in the rounding interval of the
number (`exists_shortest_eq`). It does end on one: the last grid that is tried has the number itself,
and no grid is passed over, since the first has a place in front of all digits of the number.
-/

namespace PhpAudit.Number.Shortest

open Binary64

variable {mantissa coefficient : Nat} {exponent grid : Int}

/-! ## One grid -/

/-- A quarter of the last place, in units of a grid. -/
theorem quarterOn_ratio (exponent grid : Int) :
    0 < (quarterOn exponent grid).2 ∧
    ((quarterOn exponent grid).1 : ℚ) / (quarterOn exponent grid).2 =
      2 ^ exponent / 4 / 10 ^ grid := by
  obtain ⟨hden, hratio⟩ := scale_ratio (two_pos : 0 < 2) (four_pos : 0 < 4) 1 exponent
  obtain ⟨hden', hratio'⟩ := scale_ratio (by decide : 0 < 10) hden (scale 2 1 4 exponent).1 (-grid)
  refine ⟨hden', hratio'.trans ?_⟩
  rw [hratio]
  push_cast
  rw [zpow_neg, one_div, inv_mul_eq_div, div_eq_mul_inv _ ((10 : ℚ) ^ grid)]

/-- Quarters of a last place and units of a grid are compared as the numbers that they come to. -/
theorem quarters_le_iff (exponent grid : Int) (quarters units : Nat) :
    (quarters * (quarterOn exponent grid).1 ≤ units * (quarterOn exponent grid).2 ↔
      (quarters : ℚ) * 2 ^ exponent ≤ 4 * (units * 10 ^ grid)) ∧
    (units * (quarterOn exponent grid).2 ≤ quarters * (quarterOn exponent grid).1 ↔
      4 * (units * 10 ^ grid) ≤ (quarters : ℚ) * 2 ^ exponent) := by
  obtain ⟨hden, hratio⟩ := quarterOn_ratio exponent grid
  have hden' : (0 : ℚ) < (quarterOn exponent grid).2 := by exact_mod_cast hden
  have hunit : (0 : ℚ) < 4 * 10 ^ grid := by positivity
  have hquarter : ((quarterOn exponent grid).1 : ℚ) * (4 * 10 ^ grid) =
      2 ^ exponent * (quarterOn exponent grid).2 := by
    rw [div_div, div_eq_div_iff hden'.ne' hunit.ne'] at hratio
    exact hratio
  have hleft : (quarters : ℚ) * (quarterOn exponent grid).1 * (4 * 10 ^ grid) =
      quarters * 2 ^ exponent * (quarterOn exponent grid).2 := by
    rw [mul_assoc, hquarter, mul_assoc]
  have hright : (units : ℚ) * (quarterOn exponent grid).2 * (4 * 10 ^ grid) =
      4 * (units * 10 ^ grid) * (quarterOn exponent grid).2 := by ring
  constructor
  · rw [← mul_le_mul_iff_of_pos_right hden', ← hleft, ← hright, mul_le_mul_iff_of_pos_right hunit]
    exact_mod_cast Iff.rfl
  · rw [← mul_le_mul_iff_of_pos_right hden', ← hleft, ← hright, mul_le_mul_iff_of_pos_right hunit]
    exact_mod_cast Iff.rfl

/-- A decimal reads back if it is in the interval. -/
theorem readsBack_iff : readsBack mantissa exponent grid coefficient = true ↔
    InInterval mantissa exponent (coefficient * 10 ^ grid) := by
  have hlow := quarters_le_iff exponent grid (bounds mantissa exponent).1 coefficient
  have hhigh := quarters_le_iff exponent grid (bounds mantissa exponent).2 coefficient
  unfold readsBack
  dsimp only
  split
  next heven =>
    rw [Bool.and_eq_true, decide_eq_true_eq, decide_eq_true_eq, hlow.1, hhigh.2]
    have heven' : mantissa % 2 ≠ 1 := by rw [beq_iff_eq.mp heven]; decide
    exact ⟨fun h => ⟨h.1, h.2, fun hodd => absurd hodd heven'⟩, fun h => ⟨h.low, h.high⟩⟩
  next hodd =>
    rw [Bool.and_eq_true, decide_eq_true_eq, decide_eq_true_eq, ← not_le, ← not_le, hlow.2,
      hhigh.1, not_le, not_le]
    have hodd' : mantissa % 2 = 1 := by
      rw [beq_iff_eq] at hodd
      omega
    exact ⟨fun h => ⟨h.1.le, h.2.le, fun _ => h⟩, fun h => h.odd hodd'⟩

/-- What is found on a grid is one of the two neighbours, it is positive, and it reads back. -/
theorem onGrid?_spec (h : onGrid? mantissa exponent grid = some coefficient) :
    0 < coefficient ∧ InInterval mantissa exponent (coefficient * 10 ^ grid) := by
  have hbelow {reads : Bool} {below : Nat} (h : (reads && below != 0) = true) :
      reads = true ∧ 0 < below := by
    rw [Bool.and_eq_true, bne_iff_ne] at h
    exact ⟨h.1, Nat.pos_of_ne_zero h.2⟩
  rw [← readsBack_iff]
  simp only [onGrid?] at h
  split at h
  next hlow hhigh =>
    obtain ⟨hreads, hpos⟩ := hbelow hlow
    rcases roundDiv_cases (4 * mantissa * (quarterOn exponent grid).1)
      (quarterOn exponent grid).2 with hround | ⟨hround, -⟩
    · rw [← Option.some.inj h, hround]
      exact ⟨hpos, hreads⟩
    · rw [← Option.some.inj h, hround]
      exact ⟨Nat.succ_pos _, hhigh⟩
  next hlow _ =>
    rw [← Option.some.inj h]
    exact (hbelow hlow).symm
  next _ hhigh =>
    rw [← Option.some.inj h]
    exact ⟨Nat.succ_pos _, hhigh⟩
  next => cases h

/-- On a grid that has the number itself, a decimal is found. -/
theorem isSome_onGrid? (hmantissa : 0 < mantissa)
    (hgrid : ∃ n : Nat, (mantissa : ℚ) * 2 ^ exponent = n * 10 ^ grid) :
    (onGrid? mantissa exponent grid).isSome = true := by
  obtain ⟨n, hn⟩ := hgrid
  have hreads : readsBack mantissa exponent grid n = true := by
    rw [readsBack_iff, ← hn]
    exact inInterval_self hmantissa exponent
  have hpos : n ≠ 0 := by
    rintro rfl
    rw [Nat.cast_zero, zero_mul] at hn
    have : (0 : ℚ) < mantissa * 2 ^ exponent := by positivity
    linarith
  obtain ⟨hden, -⟩ := quarterOn_ratio exponent grid
  have hbelow : 4 * mantissa * (quarterOn exponent grid).1 / (quarterOn exponent grid).2 = n := by
    have hexact := quarters_le_iff exponent grid (4 * mantissa) n
    have hvalue : ((4 * mantissa : Nat) : ℚ) * 2 ^ exponent = 4 * (n * 10 ^ grid) := by
      rw [← hn]
      push_cast
      ring
    have heq := le_antisymm (hexact.1.mpr hvalue.le) (hexact.2.mpr hvalue.ge)
    rw [heq, Nat.mul_div_cancel _ hden]
  simp only [onGrid?, hbelow, hreads, bne_iff_ne.mpr hpos, Bool.and_self]
  cases readsBack mantissa exponent grid (n + 1) <;> rfl

/-! ## The search -/

/-- Every number is on the grid of units, or on the grid of its own exponent if that is finer. -/
theorem exists_eq_on_last (mantissa : Nat) (exponent : Int) :
    ∃ n : Nat, (mantissa : ℚ) * 2 ^ exponent = n * 10 ^ min exponent 0 := by
  rcases le_total 0 exponent with hwhole | hfraction
  · obtain ⟨k, rfl⟩ := Int.eq_ofNat_of_zero_le hwhole
    refine ⟨mantissa * 2 ^ k, ?_⟩
    rw [min_eq_right hwhole, zpow_zero, mul_one, zpow_natCast]
    push_cast
    rfl
  · obtain ⟨k, hk⟩ := Int.eq_ofNat_of_zero_le (neg_nonneg.mpr hfraction)
    obtain rfl : exponent = -(k : Int) := by omega
    refine ⟨mantissa * 5 ^ k, ?_⟩
    have hten : (10 : ℚ) ^ k = 5 ^ k * 2 ^ k := by rw [← mul_pow]; norm_num
    rw [min_eq_left hfraction, zpow_neg, zpow_neg, zpow_natCast, zpow_natCast, hten]
    push_cast
    rw [mul_inv, mul_assoc, mul_inv_cancel_left₀ (by positivity)]

/-- A number of a grid, scaled by more places than the grid has, is an integer. -/
theorem scaled_div_eq {num den n places shift : Nat} (hden : 0 < den)
    (hratio : (num : ℚ) / den = n * 10 ^ grid) (hshift : (shift : Int) + grid = places) :
    num * Nat.pow 10 shift / den = n * 10 ^ places := by
  have hden' : (0 : ℚ) < den := by exact_mod_cast hden
  have hten : (10 : ℚ) ^ grid * 10 ^ shift = 10 ^ places := by
    rw [← zpow_natCast, ← zpow_natCast, ← zpow_add₀ (by norm_num), ← hshift, add_comm]
  have hexact : ((num * 10 ^ shift : Nat) : ℚ) = ((n * 10 ^ places * den : Nat) : ℚ) := by
    rw [div_eq_iff hden'.ne'] at hratio
    push_cast
    rw [hratio, ← hten]
    ring
  rw [Nat.pow_eq, Nat.cast_injective hexact, Nat.mul_div_cancel _ hden]

/-- A number that is shifted to the left has all digits that stand in front of the last grid. -/
theorem min_add_lt_length (hmantissa : 0 < mantissa) (exponent : Int) (shift : Nat) :
    min exponent 0 + shift < (Nat.toDigits 10 ((quotient mantissa exponent).1 * Nat.pow 10 shift /
      (quotient mantissa exponent).2)).length := by
  obtain ⟨hden, hratio⟩ := quotient_ratio mantissa exponent
  obtain ⟨n, hn⟩ := exists_eq_on_last mantissa exponent
  have hpos : 0 < n := by
    refine Nat.pos_of_ne_zero ?_
    rintro rfl
    have : (0 : ℚ) < mantissa * 2 ^ exponent := by positivity
    rw [hn, Nat.cast_zero, zero_mul] at this
    exact lt_irrefl _ this
  rcases le_or_gt (shift + min exponent 0) 0 with hsmall | hlarge
  · have hlength := Nat.length_toDigits_pos (b := 10) (n := (quotient mantissa exponent).1 *
      Nat.pow 10 shift / (quotient mantissa exponent).2)
    omega
  · obtain ⟨places, hplaces⟩ := Int.eq_ofNat_of_zero_le hlarge.le
    rw [scaled_div_eq hden (hratio.trans hn) hplaces]
    have hlong := (Nat.length_toDigits_le_iff (b := 10) (by decide) (by omega)).not.mpr
      (Nat.not_lt.mpr (Nat.le_mul_of_pos_left (10 ^ places) hpos))
    omega

/-- The first grid has its places in front of the last one. -/
theorem min_lt_pointOf (hmantissa : 0 < mantissa) (exponent : Int) :
    min exponent 0 < pointOf (quotient mantissa exponent).1 (quotient mantissa exponent).2 :=
  Int.lt_sub_right_of_add_lt (min_add_lt_length hmantissa exponent deepest)

/-- The search ends on a grid with a decimal, if it comes to one. -/
theorem exists_search_eq {point : Int} {fuel count last : Nat}
    (hlast : (onGrid? mantissa exponent (point - last)).isSome = true) (hcount : count ≤ last)
    (hfuel : last < count + fuel) :
    ∃ coefficient grid, onGrid? mantissa exponent grid = some coefficient ∧
      search mantissa exponent point fuel count = .ofScaled coefficient grid := by
  induction fuel generalizing count with
  | zero => omega
  | succ fuel ih =>
    rw [search]
    split
    next coefficient hgrid => exact ⟨coefficient, _, hgrid, rfl⟩
    next hnone =>
      refine ih ?_ (by omega)
      refine Nat.lt_of_le_of_ne hcount ?_
      rintro rfl
      rw [hnone] at hlast
      cases hlast

/-- **The shortest decimal reads back.** -/
theorem exists_shortest_eq (hmantissa : 0 < mantissa) (exponent : Int) :
    ∃ (coefficient : Nat) (grid : Int), 0 < coefficient ∧
      InInterval mantissa exponent (coefficient * 10 ^ grid) ∧
      shortest mantissa exponent = .ofScaled coefficient grid := by
  have hpoint := min_lt_pointOf hmantissa exponent
  obtain ⟨point, hdef⟩ : ∃ point,
      point = pointOf (quotient mantissa exponent).1 (quotient mantissa exponent).2 := ⟨_, rfl⟩
  rw [← hdef] at hpoint
  obtain ⟨last, hlast⟩ := Int.eq_ofNat_of_zero_le (by omega : 0 ≤ point - min exponent 0)
  have hsome : (onGrid? mantissa exponent (point - last)).isSome = true := by
    rw [show point - (last : Int) = min exponent 0 by omega]
    exact isSome_onGrid? hmantissa (exists_eq_on_last mantissa exponent)
  obtain ⟨coefficient, grid, hgrid, hsearch⟩ := exists_search_eq hsome
    (by omega : 1 ≤ last) (by omega : last < 1 + (point - min exponent 0).toNat)
  obtain ⟨hpos, hinterval⟩ := onGrid?_spec hgrid
  refine ⟨coefficient, grid, hpos, hinterval, ?_⟩
  rw [← hsearch, hdef]
  rfl

end PhpAudit.Number.Shortest
