import PhpAudit.Proofs.Json.Token
import PhpAudit.Proofs.Number.Shortest

/-!
# Numbers are read back

A finite number is read back from what is written for it, sign and all (`ofChars?_spelled`). What is
written comes to the shortest decimal, however its point is placed; the decimal lies in the interval
of the number, and the reader rounds it to the number. The reader does not scale by powers that are
out of proportion, and no decimal in the interval of a number of the format is.
-/

namespace PhpAudit.Number

open Json

/-! ## Digits -/

/-- The number that digits come to, with the point moved by so many places. -/
def scaledValue (digits : List Char) (exponent : Int) : ℚ := natOfDigits digits * 10 ^ exponent

theorem natOfDigits_append (front back : List Char) :
    natOfDigits (front ++ back) = 10 ^ back.length * natOfDigits front + natOfDigits back := by
  have hfold (digits : List Char) : natOfDigits digits = Nat.ofDigitChars 10 digits 0 :=
    Nat.ofDigitChars_eq_foldl.symm
  rw [hfold, hfold, hfold, Nat.ofDigitChars_append, Nat.ofDigitChars_eq_ofDigitChars_zero]

theorem natOfDigits_zeros (n : Nat) : natOfDigits (List.replicate n '0') = 0 :=
  (Nat.ofDigitChars_eq_foldl.symm.trans Nat.ofDigitChars_replicate_zero).trans (Nat.mul_zero _)

theorem natOfDigits_toDigits (n : Nat) : natOfDigits (Nat.toDigits 10 n) = n :=
  Nat.ofDigitChars_eq_foldl.symm.trans Nat.ofDigitChars_ten_toDigits

/-- So many digits come to less than the next power of ten. -/
theorem natOfDigits_lt {digits : List Char} (h : ∀ c ∈ digits, c.isDigit = true) :
    natOfDigits digits < 10 ^ digits.length := by
  induction digits using List.reverseRecOn with
  | nil => exact Nat.one_pos
  | append_singleton digits c ih =>
    obtain ⟨hdigits, hc⟩ := List.forall_mem_append.mp h
    have hcode := Integer.toNat_of_isDigit (hc c (List.mem_singleton_self c))
    have hvalue : natOfDigits [c] = c.toNat - 48 := by
      rw [natOfDigits, List.foldl_cons, List.foldl_nil, Nat.mul_zero, Nat.zero_add]
      rfl
    have hlast := ih hdigits
    rw [natOfDigits_append, hvalue, List.length_append, List.length_singleton, Nat.pow_succ]
    omega

/-- Zeros in front of digits do not count. -/
theorem scaledValue_zeros_append (n : Nat) (digits : List Char) (exponent : Int) :
    scaledValue (List.replicate n '0' ++ digits) exponent = scaledValue digits exponent := by
  rw [scaledValue, natOfDigits_append, natOfDigits_zeros, Nat.mul_zero, Nat.zero_add, scaledValue]

/-- Zeros behind digits move the point. -/
theorem scaledValue_append_zeros (digits : List Char) (n : Nat) (exponent : Int) :
    scaledValue (digits ++ List.replicate n '0') exponent = scaledValue digits (exponent + n) := by
  rw [scaledValue, natOfDigits_append, natOfDigits_zeros, List.length_replicate, scaledValue,
    zpow_add₀ (by norm_num), zpow_natCast]
  push_cast
  ring

/-- The number that a decimal comes to. -/
def Decimal.value (decimal : Decimal) : ℚ :=
  scaledValue decimal.digits (decimal.point - decimal.digits.length)

/-- The decimal of a coefficient comes to it, though the zeros at its end are left out. -/
theorem Decimal.value_ofScaled (coefficient : Nat) (exponent : Int) :
    (Decimal.ofScaled coefficient exponent).value = coefficient * 10 ^ exponent := by
  have hsplit : (Nat.toDigits 10 coefficient).rdropWhile (· == '0') ++
      (Nat.toDigits 10 coefficient).rtakeWhile (· == '0') = Nat.toDigits 10 coefficient :=
    List.rdropWhile_append_rtakeWhile
  have hzeros : (Nat.toDigits 10 coefficient).rtakeWhile (· == '0') =
      List.replicate ((Nat.toDigits 10 coefficient).rtakeWhile (· == '0')).length '0' :=
    List.eq_replicate_of_mem fun c hc => by simpa using List.mem_rtakeWhile_imp hc
  rw [hzeros] at hsplit
  have hlength := congrArg List.length hsplit
  rw [List.length_append, List.length_replicate] at hlength
  change scaledValue ((Nat.toDigits 10 coefficient).rdropWhile (· == '0'))
    ((Nat.toDigits 10 coefficient).length + exponent -
      ((Nat.toDigits 10 coefficient).rdropWhile (· == '0')).length) = _
  conv_rhs => rw [← natOfDigits_toDigits coefficient, ← scaledValue, ← hsplit,
    scaledValue_append_zeros]
  congr 1
  omega

/-! ## Reading digits -/

/-- A text is read as digits and an exponent, with a minus sign in front or without one. -/
def IsReadAs (text digits : List Char) (exponent : Int) : Prop :=
  ∀ negative : Bool, Binary64.ofChars? (if negative then '-' :: text else text) =
    some (Binary64.ofDecimal negative digits exponent)

/-- A text that starts with a digit has no sign. -/
theorem takeSign_digits {digits : List Char} (h : AreDigits digits) (rest : List Char) :
    takeSign (digits ++ rest) = (false, digits ++ rest) := by
  obtain ⟨c, more, rfl⟩ := List.exists_cons_of_ne_nil h.ne_nil
  have hdigit := h.isDigit c List.mem_cons_self
  rw [List.cons_append, takeSign]
  · rintro text heq
    rw [(List.cons.inj heq).1] at hdigit
    exact absurd hdigit (by decide)
  · rintro text heq
    rw [(List.cons.inj heq).1] at hdigit
    exact absurd hdigit (by decide)

/-- The parts of a number are read one after the other. -/
theorem isReadAs_parts {whole fraction places rest : List Char} {exponent : Int}
    (hwhole : AreDigits whole) (hplaces : ∀ c ∈ places, c.isDigit = true)
    (hfraction : fraction = '.' :: places ∨ fraction = [] ∧ places = [])
    (hrest : NextIsNot (fun c => c.isDigit || c == '.') rest)
    (hexponent : exponentOf? rest = some exponent) :
    IsReadAs (whole ++ fraction ++ rest) (whole ++ places) (exponent - places.length) := by
  intro negative
  have hsign : takeSign (if negative then '-' :: (whole ++ fraction ++ rest)
      else whole ++ fraction ++ rest) = (negative, whole ++ (fraction ++ rest)) := by
    rw [List.append_assoc]
    cases negative
    · exact takeSign_digits hwhole _
    · rfl
  have hdigit : NextIsNot Char.isDigit rest := hrest.mono fun c hc => by simp [hc]
  have hfirst : (whole ++ (fraction ++ rest)).span Char.isDigit = (whole, fraction ++ rest) := by
    refine span_append hwhole.isDigit ?_
    rcases hfraction with rfl | ⟨rfl, -⟩
    · exact nextIsNot_cons rfl
    · exact hdigit
  have hempty : (whole.isEmpty && places.isEmpty) = false := by
    rw [List.isEmpty_eq_false_iff.mpr hwhole.ne_nil, Bool.false_and]
  have hsecond : takePlaces (fraction ++ rest) = (places, rest) := by
    rcases hfraction with rfl | ⟨rfl, rfl⟩
    · exact span_append hplaces hdigit
    · rw [List.nil_append, takePlaces]
      rintro text rfl
      exact absurd (hrest '.' rfl) (by decide)
  unfold Binary64.ofChars?
  simp only [hsign, hfirst, hsecond, hempty, Bool.false_eq_true, if_false, hexponent,
    Option.map_some]

/-- An exponent is read back from its sign and its digits. -/
theorem exponentOf?_power (exponent : Int) (width : Nat) :
    exponentOf? ('e' :: (if exponent < 0 then '-' else '+') ::
      padded width (Nat.toDigits 10 exponent.natAbs)) = some exponent := by
  have hdigits : AreDigits (padded width (Nat.toDigits 10 exponent.natAbs)) :=
    (areDigits_toDigits _).zeros_append _
  have hempty : (padded width (Nat.toDigits 10 exponent.natAbs)).isEmpty = false :=
    List.isEmpty_eq_false_iff.mpr hdigits.ne_nil
  have hall : (padded width (Nat.toDigits 10 exponent.natAbs)).all Char.isDigit = true :=
    List.all_eq_true.mpr hdigits.isDigit
  have hvalue : natOfDigits (padded width (Nat.toDigits 10 exponent.natAbs)) =
      exponent.natAbs := by
    rw [padded, natOfDigits_append, natOfDigits_zeros, natOfDigits_toDigits, Nat.mul_zero,
      Nat.zero_add]
  by_cases hnegative : exponent < 0
  · simp only [if_pos hnegative, exponentOf?, takeSign, hempty, hall, hvalue, beq_self_eq_true,
      Bool.true_or, if_true, Bool.not_true, Bool.or_self, Bool.false_eq_true, if_false,
      Option.some.injEq]
    omega
  · simp only [if_neg hnegative, exponentOf?, takeSign, hempty, hall, hvalue, beq_self_eq_true,
      Bool.true_or, if_true, Bool.not_true, Bool.or_self, Bool.false_eq_true, if_false,
      Option.some.injEq]
    omega

/-! ## Reading decimals -/

/-- A text is read as digits that come to a value. -/
def Spells (text : List Char) (value : ℚ) : Prop :=
  ∃ digits exponent, (∀ c ∈ digits, c.isDigit = true) ∧ IsReadAs text digits exponent ∧
    scaledValue digits exponent = value

section spelled

variable {decimal : Decimal}

/-- Digits with a point among them are read as they stand. -/
theorem spells_places {whole places : List Char} (hwhole : AreDigits whole)
    (hplaces : ∀ c ∈ places, c.isDigit = true) :
    Spells (whole ++ '.' :: places) (scaledValue (whole ++ places) (-(places.length : Int))) := by
  refine ⟨whole ++ places, 0 - places.length, ?_, ?_, by rw [zero_sub]⟩
  · exact fun c hc => (List.mem_append.mp hc).elim (hwhole.isDigit c) (hplaces c)
  · have hread := isReadAs_parts hwhole hplaces (.inl rfl) nextIsNot_nil rfl
    rwa [List.append_nil] at hread

/-- A decimal that is written out is read as its value. -/
theorem spells_positional (h : ArePositive decimal.digits) :
    Spells decimal.positional decimal.value := by
  have hdigits := h.areDigits.isDigit
  unfold Decimal.positional
  split
  next hsmall =>
    have hspells := spells_places (isWhole_natChars 0).areDigits
      (h.areDigits.zeros_append (-decimal.point).toNat).isDigit
    have hvalue := scaledValue_zeros_append ((-decimal.point).toNat + 1) decimal.digits
      (decimal.point - decimal.digits.length)
    have hexponent : -((List.replicate (-decimal.point).toNat '0' ++ decimal.digits).length : Int) =
        decimal.point - decimal.digits.length := by
      rw [List.length_append, List.length_replicate]
      omega
    rw [hexponent] at hspells
    rw [List.append_assoc, Decimal.value, ← hvalue]
    exact hspells
  next hlarge =>
    dsimp only
    split
    next hlong =>
      have hwhole : AreDigits (decimal.digits ++
          List.replicate (decimal.point.toNat - decimal.digits.length) '0') :=
        h.areDigits.append fun _ => isDigit_of_mem_zeros
      have hspells := spells_places hwhole (isWhole_natChars 0).areDigits.isDigit
      have hvalue := scaledValue_append_zeros decimal.digits
        (decimal.point.toNat - decimal.digits.length + 1) (-1)
      have hexponent : (-1 : Int) + ((decimal.point.toNat - decimal.digits.length + 1 : Nat) : Int) =
          decimal.point - decimal.digits.length := by omega
      rw [List.replicate_succ', ← List.append_assoc, hexponent] at hvalue
      rw [Decimal.value, ← hvalue]
      exact hspells
    next hshort =>
      have htake : decimal.digits.take decimal.point.toNat ≠ [] := by
        rw [Ne, List.take_eq_nil_iff, not_or]
        exact ⟨by omega, h.areDigits.ne_nil⟩
      have hplaces : ∀ c ∈ decimal.digits.drop decimal.point.toNat, c.isDigit = true :=
        fun c hc => hdigits c (List.mem_of_mem_drop hc)
      have hspells := spells_places ⟨htake, fun c hc => hdigits c (List.mem_of_mem_take hc)⟩ hplaces
      have hexponent : -((decimal.digits.drop decimal.point.toNat).length : Int) =
          decimal.point - decimal.digits.length := by
        rw [List.length_drop]
        omega
      rw [List.take_append_drop, hexponent] at hspells
      rw [List.append_assoc, List.singleton_append]
      exact hspells

/-- A decimal that is written with an exponent is read as its value: behind the first digit stands
the point. -/
theorem spells_scientific (h : ArePositive decimal.digits) (layout : Layout) :
    Spells (decimal.scientific layout) decimal.value := by
  obtain ⟨d, more, hdigits⟩ := List.exists_cons_of_ne_nil h.areDigits.ne_nil
  have hisDigit := h.areDigits.isDigit
  rw [hdigits, List.forall_mem_cons] at hisDigit
  have hfirst : AreDigits [d] := ⟨List.cons_ne_nil d [], List.forall_mem_singleton.mpr hisDigit.1⟩
  obtain ⟨fraction, hfraction, htext⟩ : ∃ fraction,
      (fraction = '.' :: more ∨ fraction = [] ∧ more = []) ∧
      decimal.scientific layout = [d] ++ fraction ++
        'e' :: (if decimal.point - 1 < 0 then '-' else '+') ::
          padded layout.exponentWidth (Nat.toDigits 10 (decimal.point - 1).natAbs) := by
    unfold Decimal.scientific
    simp only [hdigits]
    cases more with
    | nil => exact ⟨[], .inr ⟨rfl, rfl⟩, rfl⟩
    | cons e more => exact ⟨'.' :: e :: more, .inl rfl, by simp⟩
  refine ⟨[d] ++ more, decimal.point - 1 - more.length, ?_, ?_, ?_⟩
  · exact List.forall_mem_cons.mpr hisDigit
  · rw [htext]
    exact isReadAs_parts hfirst hisDigit.2 hfraction (nextIsNot_cons rfl)
      (exponentOf?_power (decimal.point - 1) layout.exponentWidth)
  · rw [Decimal.value, hdigits, List.singleton_append, List.length_cons]
    congr 1
    push_cast
    ring

/-- However a decimal is written, it is read as its value. -/
theorem spells_spelled (h : ArePositive decimal.digits) (layout : Layout) :
    Spells (decimal.spelled layout) decimal.value := by
  rw [Decimal.spelled]
  split
  · exact spells_positional h
  · exact spells_scientific h layout

end spelled

/-! ## Rounding what is read -/

/-- A power of eight is not above the power of ten. -/
theorem two_zpow_le_ten_zpow {n : Int} (h : 0 ≤ n) : (2 : ℚ) ^ (3 * n) ≤ 10 ^ n := by
  rw [zpow_mul]
  exact zpow_le_zpow_left₀ h (by norm_num) (by norm_num)

namespace Binary64

/-- A decimal that is not out of proportion is rounded. -/
theorem exists_ofDecimal_eq_nearest {digits : List Char} {exponent : Int}
    (hdigits : ∀ c ∈ digits, c.isDigit = true) (hlow : 10 ^ (-400 : Int) ≤ scaledValue digits exponent)
    (hhigh : scaledValue digits exponent ≤ 10 ^ (400 : Int)) (negative : Bool) :
    ∃ num den : Nat, num ≠ 0 ∧ 0 < den ∧ (num : ℚ) / den = scaledValue digits exponent ∧
      ofDecimal negative digits exponent = nearest negative num den := by
  have hvalue : 0 < scaledValue digits exponent := lt_of_lt_of_le (by positivity) hlow
  have hcoefficient : natOfDigits digits ≠ 0 := by
    intro hzero
    rw [scaledValue, hzero, Nat.cast_zero, zero_mul] at hvalue
    exact lt_irrefl _ hvalue
  have hpow : (0 : ℚ) < 10 ^ exponent := by positivity
  -- the bounds on the value keep both guards of the reader from firing
  have hsize : -400 ≤ (digits.length : Int) + exponent := by
    have hbound : ((natOfDigits digits : Nat) : ℚ) ≤ 10 ^ (digits.length : Int) := by
      rw [zpow_natCast]
      exact_mod_cast (natOfDigits_lt hdigits).le
    have hle := hlow.trans (mul_le_mul_of_nonneg_right hbound hpow.le)
    rwa [← zpow_add₀ (by norm_num), zpow_le_zpow_iff_right₀ (by norm_num)] at hle
  have hexponent : exponent ≤ 400 := by
    have hbound : (1 : ℚ) ≤ natOfDigits digits := by
      exact_mod_cast Nat.one_le_iff_ne_zero.mpr hcoefficient
    have hle := (mul_le_mul_of_nonneg_right hbound hpow.le).trans hhigh
    rwa [one_mul, zpow_le_zpow_iff_right₀ (by norm_num)] at hle
  obtain ⟨hden, hratio⟩ := scale_ratio (by decide : 0 < 10) one_pos (natOfDigits digits) exponent
  rw [Nat.cast_one, div_one, Nat.cast_ofNat, ← scaledValue] at hratio
  refine ⟨(scale 10 (natOfDigits digits) 1 exponent).1,
    (scale 10 (natOfDigits digits) 1 exponent).2, ?_, hden, hratio, ?_⟩
  · intro hzero
    rw [hzero, Nat.cast_zero, zero_div] at hratio
    exact hvalue.ne hratio
  · have hguard : (decide (natOfDigits digits = 0) ||
        decide ((digits.length : Int) + exponent < -400)) = false := by
      rw [Bool.or_eq_false_iff, decide_eq_false_iff_not, decide_eq_false_iff_not]
      exact ⟨hcoefficient, by omega⟩
    unfold ofDecimal
    simp only [hguard, Bool.false_eq_true, if_false]
    rw [if_neg (by omega)]

/-- The interval of a number of the format is not out of proportion. -/
theorem InInterval.inProportion {mantissa : Nat} {exponent : Int} {value : ℚ}
    (hmantissa : 0 < mantissa) (hformat : InFormat mantissa exponent)
    (h : InInterval mantissa exponent value) :
    10 ^ (-400 : Int) ≤ value ∧ value ≤ 10 ^ (400 : Int) := by
  have hten := two_zpow_le_ten_zpow (by decide : (0 : Int) ≤ 400)
  constructor
  · have hone : (1 : ℚ) ≤ mantissa := by exact_mod_cast hmantissa
    have hhalf : (2 : ℚ) ^ exponent ≤ 2 * value := by
      have hscaled := h.scaled.1
      rw [← mul_div_assoc, le_div_iff₀ (by positivity)] at hscaled
      refine le_trans (le_mul_of_one_le_left (by positivity) ?_) hscaled
      linarith
    have hvalue : (2 : ℚ) ^ (exponent - 1) ≤ value := by
      rw [zpow_sub_one₀ two_ne_zero, ← div_eq_mul_inv, div_le_iff₀ two_pos]
      linarith
    refine le_trans ?_ hvalue
    calc (10 : ℚ) ^ (-400 : Int) ≤ 2 ^ (-(3 * 400) : Int) := by
          rw [zpow_neg, zpow_neg]
          exact inv_anti₀ (by positivity) hten
      _ ≤ 2 ^ (exponent - 1) := by
          have := hformat.least_le
          rw [leastExponent] at this
          exact zpow_le_zpow_right₀ one_le_two (by omega)
  · refine (h.lt_zpow hformat.mantissa_lt).le.trans (le_trans ?_ hten)
    have := hformat.le_greatest
    rw [greatestExponent] at this
    exact zpow_le_zpow_right₀ one_le_two (by omega)

/-- **Numbers are read back.** A finite number of the format is read back from what is written for
it. -/
theorem ofChars?_spelled {x : Binary64} (hfinite : x.isFinite = true) (hcanonical : x.IsCanonical)
    (layout : Layout) : ofChars? (x.spelled layout).toList = some x := by
  cases x with
  | nan => cases hfinite
  | infinite => cases hfinite
  | finite negative mantissa exponent =>
    rw [spelled, String.toList_ofList]
    by_cases hmantissa : mantissa = 0
    · have hexponent : exponent = leastExponent := by
        by_contra hne
        have hlarge := hcanonical.le_mantissa (lt_of_le_of_ne hcanonical.least_le (Ne.symm hne))
        omega
      rw [hmantissa, hexponent]
      cases negative <;> rfl
    · have hpos := Nat.pos_of_ne_zero hmantissa
      simp only [if_neg hmantissa]
      obtain ⟨coefficient, grid, hcoefficient, hinterval, hshortest⟩ :=
        Shortest.exists_shortest_eq hpos exponent
      obtain ⟨digits, power, hdigits, hread, hvalue⟩ :=
        spells_spelled (arePositive_ofScaled hcoefficient grid) layout
      obtain ⟨hlow, hhigh⟩ := hinterval.inProportion hpos hcanonical
      rw [Decimal.value_ofScaled] at hvalue
      rw [← hvalue] at hlow hhigh hinterval
      obtain ⟨num, den, hnum, hden, hratio, hround⟩ :=
        exists_ofDecimal_eq_nearest hdigits hlow hhigh negative
      rw [← hratio] at hinterval
      rw [hshortest, hread negative, hround, nearest_eq_finite negative hnum hden hcanonical hinterval]

end Binary64

end PhpAudit.Number
