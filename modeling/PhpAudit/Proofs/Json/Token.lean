import Mathlib.Data.List.DropRight
import PhpAudit.Json.Basic
import PhpAudit.Proofs.Json.Number
import PhpAudit.Proofs.Number.Integer
import PhpAudit.Proofs.Number.Rounding

/-!
# What is written for a number is one

The digits of a natural number are a whole part (`isWhole_natChars`). The other numbers go through
their shortest decimal: whatever grid the search for it ends on, its coefficient is positive, so
the decimal has a first digit that is not zero, and from there each way of writing it has the parts
of a number (`isNumber_numberToken`). The words for the numbers that are not finite are none.
-/

namespace PhpAudit.Json

open Number

/-! ## Digits -/

/-- Digits followed by digits are digits. -/
theorem AreDigits.append {first second : List Char} (hfirst : AreDigits first)
    (hsecond : ∀ c ∈ second, c.isDigit = true) : AreDigits (first ++ second) where
  ne_nil := List.append_ne_nil_of_left_ne_nil hfirst.ne_nil _
  isDigit c hc := (List.mem_append.mp hc).elim (hfirst.isDigit c) (hsecond c)

/-- Padding zeros are digits. -/
theorem isDigit_of_mem_zeros {n : Nat} {c : Char} (h : c ∈ List.replicate n '0') :
    c.isDigit = true := by
  rw [List.eq_of_mem_replicate h]
  rfl

/-- Digits stay digits behind padding zeros. -/
theorem AreDigits.zeros_append {digits : List Char} (h : AreDigits digits) (n : Nat) :
    AreDigits (List.replicate n '0' ++ digits) where
  ne_nil := List.append_ne_nil_of_right_ne_nil _ h.ne_nil
  isDigit c hc := (List.mem_append.mp hc).elim isDigit_of_mem_zeros (h.isDigit c)

/-- A natural number is written in digits. -/
theorem areDigits_toDigits (n : Nat) : AreDigits (Nat.toDigits 10 n) :=
  ⟨Nat.toDigits_ne_nil, fun _ => Integer.isDigit_of_mem_natChars⟩

/-- Only zero is written with a zero in front. -/
theorem eq_zero_of_toDigits {n : Nat} {rest : List Char} (h : Nat.toDigits 10 n = '0' :: rest) :
    n = 0 := by
  induction n using Nat.strong_induction_on generalizing rest with
  | _ n ih =>
    rw [Nat.toDigits_eq_if (by decide)] at h
    split at h
    next hlt => exact Nat.digitChar_eq_zero.mp (List.cons.inj h).1
    next hge =>
      obtain ⟨c, more, hmore⟩ := List.exists_cons_of_ne_nil (Nat.toDigits_ne_nil (n := n / 10))
      rw [hmore, List.cons_append, List.cons.injEq] at h
      have := ih (n / 10) (by omega) (h.1 ▸ hmore)
      omega

/-- A natural number is a whole part. -/
theorem isWhole_natChars (n : Nat) : IsWhole (Integer.natChars n) where
  areDigits := areDigits_toDigits n
  eq_nil_of_zero rest h := by
    have hzero : Integer.natChars 0 = '0' :: rest := by rw [← eq_zero_of_toDigits h, h]
    exact (List.cons.inj hzero).2.symm

/-! ## Integers -/

/-- A whole part alone is a number without a sign. -/
theorem IsWhole.isMagnitude {chars : List Char} (h : IsWhole chars) : IsMagnitude chars := by
  have hparts := IsMagnitude.parts h .missing .missing
  rwa [List.append_nil, List.append_nil] at hparts

/-! ## Decimals -/

/-- Digits of which the first is not zero. -/
structure ArePositive (chars : List Char) : Prop where
  areDigits : AreDigits chars
  ne_zero : ∀ rest, chars ≠ '0' :: rest

namespace ArePositive

variable {chars more : List Char}

/-- Digits without a leading zero are a whole part. -/
theorem isWhole (h : ArePositive chars) : IsWhole chars :=
  ⟨h.areDigits, fun rest heq => absurd heq (h.ne_zero rest)⟩

/-- More digits may follow. -/
theorem append (h : ArePositive chars) (hmore : ∀ c ∈ more, c.isDigit = true) :
    ArePositive (chars ++ more) := by
  refine ⟨h.areDigits.append hmore, fun rest heq => ?_⟩
  obtain ⟨c, digits, rfl⟩ := List.exists_cons_of_ne_nil h.areDigits.ne_nil
  rw [List.cons_append, List.cons.injEq] at heq
  exact h.ne_zero digits (by rw [heq.1])

/-- The front of digits without a leading zero has none either. -/
theorem of_prefix (h : ArePositive more) (hne : chars ≠ []) (hstart : chars <+: more) :
    ArePositive chars := by
  refine ⟨⟨hne, fun c hc => h.areDigits.isDigit c (hstart.subset hc)⟩, ?_⟩
  rintro rest rfl
  obtain ⟨last, hlast⟩ := hstart
  exact h.ne_zero _ hlast.symm

end ArePositive

/-- A positive number is written without a leading zero. -/
theorem arePositive_toDigits {n : Nat} (h : 0 < n) : ArePositive (Nat.toDigits 10 n) :=
  ⟨areDigits_toDigits n, fun _ heq => Nat.ne_of_gt h (eq_zero_of_toDigits heq)⟩

/-- A positive coefficient gives a decimal with a first digit that is not zero: only zeros behind
it are dropped. -/
theorem arePositive_ofScaled {coefficient : Nat} (h : 0 < coefficient) (exponent : Int) :
    ArePositive (Decimal.ofScaled coefficient exponent).digits := by
  have hall := arePositive_toDigits h
  change ArePositive ((Nat.toDigits 10 coefficient).rdropWhile (· == '0'))
  refine hall.of_prefix (fun hnil => ?_) (List.rdropWhile_prefix _ _)
  obtain ⟨c, more, hcons⟩ := List.exists_cons_of_ne_nil hall.areDigits.ne_nil
  have hzero := List.rdropWhile_eq_nil_iff.mp hnil c (hcons ▸ List.mem_cons_self)
  exact hall.ne_zero more (by rw [hcons, beq_iff_eq.mp hzero])

/-- On no grid is the decimal that reads back zero. -/
theorem pos_of_onGrid? {mantissa coefficient : Nat} {exponent grid : Int}
    (h : Shortest.onGrid? mantissa exponent grid = some coefficient) : 0 < coefficient := by
  have hpos {reads : Bool} {below : Nat} (hbelow : (reads && below != 0) = true) : 0 < below :=
    Nat.pos_of_ne_zero (bne_iff_ne.mp (Bool.and_eq_true_iff.mp hbelow).2)
  simp only [Shortest.onGrid?] at h
  split at h
  next hbelow hreads =>
    rw [← Option.some.inj h]
    exact (hpos hbelow).trans_le (div_le_roundDiv _ _)
  next hbelow hreads =>
    rw [← Option.some.inj h]
    exact hpos hbelow
  next =>
    rw [← Option.some.inj h]
    exact Nat.succ_pos _
  next => cases h

/-- The search ends with a first digit that is not zero, wherever it starts. -/
theorem arePositive_search {mantissa : Nat} (hmantissa : 0 < mantissa) (exponent point : Int)
    (fuel count : Nat) :
    ArePositive (Shortest.search mantissa exponent point fuel count).digits := by
  induction fuel generalizing count with
  | zero => exact arePositive_ofScaled hmantissa _
  | succ fuel ih =>
    rw [Shortest.search]
    split
    next coefficient hgrid => exact arePositive_ofScaled (pos_of_onGrid? hgrid) _
    next => exact ih _

/-- The shortest decimal of a positive number has a first digit that is not zero. -/
theorem arePositive_shortest {mantissa : Nat} (hmantissa : 0 < mantissa) (exponent : Int) :
    ArePositive (shortest mantissa exponent).digits := by
  rw [shortest]
  exact arePositive_search hmantissa _ _ _ _

/-! ## Decimals as written -/

section spelled

variable {decimal : Decimal}

/-- A decimal written out is a number without a sign. -/
theorem isMagnitude_positional (h : ArePositive decimal.digits) :
    IsMagnitude decimal.positional := by
  have hmagnitude {whole places : List Char} (hwhole : IsWhole whole) (hplaces : AreDigits places) :
      IsMagnitude (whole ++ '.' :: places) := by
    have hparts := IsMagnitude.parts hwhole (.places hplaces) .missing
    rwa [List.append_nil] at hparts
  unfold Decimal.positional
  split
  next hsmall =>
    have hwhole := hmagnitude (isWhole_natChars 0)
      (h.areDigits.zeros_append (-decimal.point).toNat)
    rwa [List.append_assoc]
  next hlarge =>
    dsimp only
    split
    next hlong =>
      exact hmagnitude (h.append fun _ => isDigit_of_mem_zeros).isWhole ⟨by simp, by simp⟩
    next hshort =>
      rw [List.append_assoc]
      have htake : decimal.digits.take decimal.point.toNat ≠ [] := by
        rw [Ne, List.take_eq_nil_iff, not_or]
        exact ⟨by omega, h.areDigits.ne_nil⟩
      have hdrop : decimal.digits.drop decimal.point.toNat ≠ [] := by
        rw [Ne, List.drop_eq_nil_iff]
        exact hshort
      exact hmagnitude (h.of_prefix htake (List.take_prefix _ _)).isWhole
        ⟨hdrop, fun c hc => h.areDigits.isDigit c (List.mem_of_mem_drop hc)⟩

/-- A decimal written with an exponent is a number without a sign. -/
theorem isMagnitude_scientific (h : ArePositive decimal.digits) (layout : Layout) :
    IsMagnitude (decimal.scientific layout) := by
  have hmagnitude {whole fraction : List Char} (hwhole : IsWhole whole)
      (hfraction : IsFraction fraction) :
      IsMagnitude (whole ++ fraction ++ ['e', if decimal.point - 1 < 0 then '-' else '+'] ++
        padded layout.exponentWidth (Nat.toDigits 10 (decimal.point - 1).natAbs)) := by
    rw [List.append_assoc (whole ++ fraction)]
    refine .parts hwhole hfraction (.power (.inl rfl) ?_ ((areDigits_toDigits _).zeros_append _))
    split
    · exact .inr (.inr rfl)
    · exact .inr (.inl rfl)
  have hfirst {d : Char} {more : List Char} (hdigits : decimal.digits = d :: more) :
      IsWhole [d] := by
    refine (h.of_prefix (List.cons_ne_nil d []) ?_).isWhole
    rw [hdigits]
    exact ⟨more, rfl⟩
  rw [Decimal.scientific]
  -- one digit is written without a point, so there is no fraction
  split
  next d e more hdigits =>
    have hplaces : AreDigits (e :: more) :=
      ⟨List.cons_ne_nil _ _, fun c hc =>
        h.areDigits.isDigit c (hdigits ▸ List.mem_cons_of_mem _ hc)⟩
    exact hmagnitude (hfirst hdigits) (.places hplaces)
  next hshort =>
    obtain ⟨d, more, hdigits⟩ := List.exists_cons_of_ne_nil h.areDigits.ne_nil
    cases more with
    | nil =>
      rw [hdigits]
      exact hmagnitude (hfirst hdigits) .missing
    | cons e more => exact absurd hdigits (hshort d e more)

end spelled

/-- A number with a sign or without one. -/
theorem IsMagnitude.isNumber {chars : List Char} (h : IsMagnitude chars) (negative : Bool) :
    IsNumber (if negative then '-' :: chars else chars) := by
  cases negative
  · exact .unsigned h
  · exact .negative h

/-- **A finite number is written as a number.** -/
theorem isNumber_numberToken {x : Binary64} (h : x.isFinite = true) : IsNumber (numberToken x) := by
  cases x with
  | nan => cases h
  | infinite => cases h
  | finite negative mantissa exponent =>
    rw [numberToken, Binary64.spelled, String.toList_ofList]
    refine IsMagnitude.isNumber ?_ negative
    split
    next => exact .parts (isWhole_natChars 0) (.places ⟨List.cons_ne_nil '0' [], by simp⟩) .missing
    next hmantissa =>
      have hdigits := arePositive_shortest (Nat.pos_of_ne_zero hmantissa) exponent
      rw [Decimal.spelled]
      split
      · exact isMagnitude_positional hdigits
      · exact isMagnitude_scientific hdigits _

end PhpAudit.Json
