import PhpAudit.Number.Binary64

/-!
# Shortest decimals

A finite number is written with the fewest digits that read back as it. For one digit, two digits
and so on, the two neighbours of the number on the grid of decimals with so many digits are
tested; the first grid with a decimal that reads back wins, and of two such decimals the nearer.
-/

namespace PhpAudit.Number

/-- The positive decimal `0.d₁d₂… * 10 ^ point`, the first digit not being zero. -/
structure Decimal where
  digits : List Char
  point : Int
deriving DecidableEq, Repr, Inhabited

/-- The decimal `coefficient * 10 ^ exponent`, for a positive coefficient. -/
def Decimal.ofScaled (coefficient : Nat) (exponent : Int) : Decimal :=
  let all := Nat.toDigits 10 coefficient
  ⟨(all.reverse.dropWhile (· == '0')).reverse, all.length + exponent⟩

namespace Shortest

/-- The multiples of a quarter of the last place between which a number lies that rounds to
`mantissa * 2 ^ exponent`, the mantissa being four of them. Below a power of two the numbers of the
format lie twice as close. -/
def bounds (mantissa : Nat) (exponent : Int) : Nat × Nat :=
  (if mantissa = Nat.pow 2 52 && exponent != Binary64.leastExponent then 4 * mantissa - 1
    else 4 * mantissa - 2, 4 * mantissa + 2)

/-- How many places behind the point are looked at. Every number of the format reaches above the last
of them. -/
def deepest : Nat := 400

/-- The point of the decimal with all digits of `num / den`: the number of digits in front of the
decimal point, or how far behind it the first digit stands. -/
def pointOf (num den : Nat) : Int :=
  (Nat.toDigits 10 (num * Nat.pow 10 deepest / den)).length - (deepest : Int)

/-- A quarter of the last place of a number in units of a grid of decimals, as a quotient. -/
def quarterOn (exponent grid : Int) : Nat × Nat :=
  let (quarter, den) := scale 2 1 4 exponent
  scale 10 quarter den (-grid)

/-- Whether a decimal of a grid reads back as `mantissa * 2 ^ exponent`. An end of the interval reads
back only when the mantissa is even. -/
def readsBack (mantissa : Nat) (exponent grid : Int) (coefficient : Nat) : Bool :=
  let (low, high) := bounds mantissa exponent
  let (quarter, den) := quarterOn exponent grid
  if mantissa % 2 == 0 then
    low * quarter ≤ coefficient * den && coefficient * den ≤ high * quarter
  else low * quarter < coefficient * den && coefficient * den < high * quarter

/-- The decimal with the least error among those of the grid of the given exponent that read back
as `mantissa * 2 ^ exponent`, if there is any. -/
def onGrid? (mantissa : Nat) (exponent grid : Int) : Option Nat :=
  let (quarter, den) := quarterOn exponent grid
  let below := 4 * mantissa * quarter / den
  match readsBack mantissa exponent grid below && below != 0,
    readsBack mantissa exponent grid (below + 1) with
  | true, true => some (roundDiv (4 * mantissa * quarter) den)
  | true, false => some below
  | false, true => some (below + 1)
  | false, false => none

/-- The first grid with a decimal that reads back, from so many digits on. -/
def search (mantissa : Nat) (exponent point : Int) : Nat → Nat → Decimal
  | 0, count => .ofScaled mantissa (point - count)
  | fuel + 1, count =>
    match onGrid? mantissa exponent (point - count) with
    | some coefficient => .ofScaled coefficient (point - count)
    | none => search mantissa exponent point fuel (count + 1)

end Shortest

/-- The shortest decimal of a positive finite number. The last grid that is tried has the number
itself, so that the search never fails. -/
def shortest (mantissa : Nat) (exponent : Int) : Decimal :=
  let (num, den) := Binary64.quotient mantissa exponent
  let point := Shortest.pointOf num den
  Shortest.search mantissa exponent point (point - min exponent 0).toNat 1

end PhpAudit.Number
