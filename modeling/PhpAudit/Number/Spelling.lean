import PhpAudit.Number.Shortest

/-!
# The spelling of numbers

How numbers are written, and how written numbers are read. A number is written with its shortest
digits: positionally from `0.0001` up to 16 digits in front of the point, and always with a digit
behind the point; otherwise with a signed exponent of two digits or more.
-/

namespace PhpAudit.Number

/-- What a way to write numbers decides. -/
structure Layout where
  /-- The positions of the decimal point that are written out: those above the first bound and up
  to the second. -/
  positionalAbove : Int
  positionalUpTo : Int
  /-- The least number of digits of an exponent. -/
  exponentWidth : Nat
  nan : String
  infinity : String

/-- The way in which numbers are written everywhere but in JSON. -/
def Layout.plain : Layout := ⟨-4, 16, 2, "nan", "inf"⟩

/-- The way in which numbers are written in JSON. -/
def Layout.json : Layout := { Layout.plain with nan := "NaN", infinity := "Infinity" }

/-- A text of digits, widened with zeros in front. -/
def padded (width : Nat) (digits : List Char) : List Char :=
  List.replicate (width - digits.length) '0' ++ digits

/-- A decimal written out. -/
def Decimal.positional (decimal : Decimal) : List Char :=
  if decimal.point ≤ 0 then
    ['0', '.'] ++ List.replicate (-decimal.point).toNat '0' ++ decimal.digits
  else
    let whole := decimal.point.toNat
    if decimal.digits.length ≤ whole then
      decimal.digits ++ List.replicate (whole - decimal.digits.length) '0' ++ ['.', '0']
    else decimal.digits.take whole ++ ['.'] ++ decimal.digits.drop whole

/-- A decimal written with an exponent. -/
def Decimal.scientific (layout : Layout) (decimal : Decimal) : List Char :=
  let exponent := decimal.point - 1
  let head := match decimal.digits with
    | d :: (e :: rest) => d :: '.' :: e :: rest
    | digits => digits
  head ++ ['e', if exponent < 0 then '-' else '+'] ++
    padded layout.exponentWidth (Nat.toDigits 10 exponent.natAbs)

def Decimal.spelled (layout : Layout) (decimal : Decimal) : List Char :=
  if layout.positionalAbove < decimal.point && decimal.point ≤ layout.positionalUpTo then
    decimal.positional
  else decimal.scientific layout

def Binary64.spelled (layout : Layout) : Binary64 → String
  | .nan => layout.nan
  | .infinite negative => (if negative then "-" else "") ++ layout.infinity
  | .finite negative mantissa exponent =>
    let magnitude :=
      if mantissa = 0 then ['0', '.', '0'] else (shortest mantissa exponent).spelled layout
    String.ofList (if negative then '-' :: magnitude else magnitude)

/-- A number as written everywhere but in JSON. -/
def Binary64.text (x : Binary64) : String := x.spelled Layout.plain

/-! ## Reading -/

/-- The natural number that some digits write. -/
def natOfDigits (digits : List Char) : Nat :=
  digits.foldl (fun n d => 10 * n + (d.toNat - '0'.toNat)) 0

/-- The number nearest to `digits * 10 ^ exponent`. Powers far outside the format need not be
computed. -/
def Binary64.ofDecimal (negative : Bool) (digits : List Char) (exponent : Int) : Binary64 :=
  let coefficient := natOfDigits digits
  let size : Int := digits.length + exponent
  if coefficient = 0 || size < -400 then zero negative
  else if 400 < exponent then .infinite negative
  else
    let (num, den) := scale 10 coefficient 1 exponent
    nearest negative num den

/-- Takes a sign off the front of a text. -/
def takeSign : List Char → Bool × List Char
  | '-' :: rest => (true, rest)
  | '+' :: rest => (false, rest)
  | text => (false, text)

/-- Takes a point and the digits behind it off the front of a text, if there is a point. -/
def takePlaces : List Char → List Char × List Char
  | '.' :: rest => rest.span Char.isDigit
  | text => ([], text)

/-- The exponent that the end of a decimal spells. -/
def exponentOf? : List Char → Option Int
  | [] => some 0
  | c :: rest =>
    if c == 'e' || c == 'E' then
      let (negative, digits) := takeSign rest
      if digits.isEmpty || !digits.all Char.isDigit then none
      else
        let n : Int := natOfDigits digits
        some (if negative then -n else n)
    else none

/-- The number nearest to the decimal that a text spells, without the words for the numbers that
are not finite. -/
def Binary64.ofChars? (text : List Char) : Option Binary64 :=
  let (negative, text) := takeSign text
  let (whole, text) := text.span Char.isDigit
  let (places, text) := takePlaces text
  if whole.isEmpty && places.isEmpty then none
  else (exponentOf? text).map fun exponent =>
    ofDecimal negative (whole ++ places) (exponent - places.length)

end PhpAudit.Number
