import PhpAudit.Number.Rounding

/-!
# Binary64 numbers

The numbers that 64-bit floating point represents, with their exact values: every finite number is
`mantissa * 2 ^ exponent`, and every operation computes its exact result as a quotient and rounds
it once, to the nearest number of the format, a half going to the even neighbour.
-/

namespace PhpAudit.Number

/-- A number of the format. A finite one has a mantissa below `2 ^ 53` and an exponent from -1074
to 971; the mantissa is at least `2 ^ 52` unless the exponent is the least one. -/
inductive Binary64 where
  | nan
  | infinite (negative : Bool)
  | finite (negative : Bool) (mantissa : Nat) (exponent : Int)
deriving DecidableEq, Repr, Inhabited

namespace Binary64

/-- The exponent of the smallest positive number, and of all numbers as close together. -/
def leastExponent : Int := -1074

def greatestExponent : Int := 971

/-- Zero, with a sign. -/
def zero (negative : Bool) : Binary64 := .finite negative 0 leastExponent

/-- The exponent that `num / den` takes in the format, when nothing limits it from above. -/
def exponentOf (num den : Nat) : Int := max leastExponent (floorLog2 num den - 52)

/-- The number with the given sign that is nearest to `num / den`. -/
def nearest (negative : Bool) (num den : Nat) : Binary64 :=
  if num = 0 then zero negative
  else
    let exponent := exponentOf num den
    let (num', den') := scale 2 num den (-exponent)
    let mantissa := roundDiv num' den'
    let (mantissa, exponent) :=
      if mantissa = Nat.pow 2 53 then (Nat.pow 2 52, exponent + 1) else (mantissa, exponent)
    if exponent ≤ greatestExponent then .finite negative mantissa exponent
    else .infinite negative

/-- The magnitude of a finite number, as a numerator and a denominator. -/
def quotient (mantissa : Nat) (exponent : Int) : Nat × Nat := scale 2 mantissa 1 exponent

/-- A mantissa with its sign. -/
def signed (negative : Bool) (mantissa : Nat) : Int := if negative then -mantissa else mantissa

/-- The number nearest to an integer. -/
def ofInt (n : Int) : Binary64 := nearest (n < 0) n.natAbs 1

/-- The number nearest to a quotient of natural numbers. -/
def ofQuotient (num den : Nat) : Binary64 := nearest false num den

def isFinite : Binary64 → Bool
  | .finite .. => true
  | _ => false

/-- The number with the other sign. -/
def neg : Binary64 → Binary64
  | .nan => .nan
  | .infinite negative => .infinite !negative
  | .finite negative mantissa exponent => .finite (!negative) mantissa exponent

/-- The sum of two finite numbers. A sum of zero is negative only if both terms are. -/
def addFinite (negative₁ : Bool) (mantissa₁ : Nat) (exponent₁ : Int)
    (negative₂ : Bool) (mantissa₂ : Nat) (exponent₂ : Int) : Binary64 :=
  let exponent := min exponent₁ exponent₂
  let sum := signed negative₁ (mantissa₁ * Nat.pow 2 (exponent₁ - exponent).toNat) +
    signed negative₂ (mantissa₂ * Nat.pow 2 (exponent₂ - exponent).toNat)
  if sum = 0 then zero (negative₁ && negative₂)
  else
    let (num, den) := quotient sum.natAbs exponent
    nearest (sum < 0) num den

/-- The sum of two numbers. -/
def add : Binary64 → Binary64 → Binary64
  | .finite negative₁ mantissa₁ exponent₁, .finite negative₂ mantissa₂ exponent₂ =>
    addFinite negative₁ mantissa₁ exponent₁ negative₂ mantissa₂ exponent₂
  | .infinite negative₁, .infinite negative₂ =>
    if negative₁ = negative₂ then .infinite negative₁ else .nan
  | .infinite negative, .finite .. => .infinite negative
  | .finite .., .infinite negative => .infinite negative
  | .nan, _ => .nan
  | _, .nan => .nan

/-- The difference of two numbers. -/
def sub (x y : Binary64) : Binary64 := add x y.neg

/-- The product of two numbers. -/
def mul : Binary64 → Binary64 → Binary64
  | .finite negative₁ mantissa₁ exponent₁, .finite negative₂ mantissa₂ exponent₂ =>
    let (num, den) := quotient (mantissa₁ * mantissa₂) (exponent₁ + exponent₂)
    nearest (negative₁ != negative₂) num den
  | .infinite negative₁, .infinite negative₂ => .infinite (negative₁ != negative₂)
  | .infinite negative₁, .finite negative₂ mantissa _ =>
    if mantissa = 0 then .nan else .infinite (negative₁ != negative₂)
  | .finite negative₁ mantissa _, .infinite negative₂ =>
    if mantissa = 0 then .nan else .infinite (negative₁ != negative₂)
  | .nan, _ => .nan
  | _, .nan => .nan

/-- The number nearest to the given one rounded to so many decimal places, where a half, judged by
the exact value, goes to the even neighbour. -/
def roundTo (places : Nat) : Binary64 → Binary64
  | .finite negative mantissa exponent =>
    let (num, den) := quotient mantissa exponent
    nearest negative (roundDiv (num * Nat.pow 10 places) den) (Nat.pow 10 places)
  | x => x

/-- Whether a number is at least an integer. -/
def atLeast (n : Int) : Binary64 → Bool
  | .nan => false
  | .infinite negative => !negative
  | .finite negative mantissa exponent =>
    let (num, den) := quotient mantissa exponent
    n * den ≤ signed negative num

/-- The integer part of a finite number. -/
def truncated (negative : Bool) (mantissa : Nat) (exponent : Int) : Int :=
  let (num, den) := quotient mantissa exponent
  signed negative (num / den)

/-- Whether a finite number is an integer. -/
def isIntegral (mantissa : Nat) (exponent : Int) : Bool :=
  let (num, den) := quotient mantissa exponent
  num % den == 0

def isZero : Binary64 → Bool
  | .finite _ mantissa _ => mantissa == 0
  | _ => false

end Binary64

end PhpAudit.Number
