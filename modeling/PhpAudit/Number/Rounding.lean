/-!
# Rounding quotients

Exact rounding of a quotient of natural numbers to the nearest integer. A half goes to the even
neighbour, so that rounding has no drift.
-/

namespace PhpAudit.Number

/-- The integer nearest to `num / den`; a half goes to the even neighbour. -/
def roundDiv (num den : Nat) : Nat :=
  let quotient := num / den
  let remainder := num % den
  if 2 * remainder < den then quotient
  else if 2 * remainder = den then quotient + quotient % 2
  else quotient + 1

/-- A quotient times a power of a base, as a numerator and a denominator. -/
def scale (base : Nat) (num den : Nat) (exponent : Int) : Nat × Nat :=
  match exponent with
  | .ofNat n => (num * base.pow n, den)
  | .negSucc n => (num, den * base.pow (n + 1))

/-- The greatest `k` for which `2 ^ k` does not exceed `num / den`, both positive. -/
def floorLog2 (num den : Nat) : Int :=
  let guess : Int := (Nat.log2 num : Int) - Nat.log2 den
  let (num', den') := scale 2 num den (-guess)
  if den' ≤ num' then guess else guess - 1

end PhpAudit.Number
