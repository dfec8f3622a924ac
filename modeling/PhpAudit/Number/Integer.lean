import PhpAudit.Number.Spelling
import PhpAudit.Text.Blank
import PhpAudit.Text.DecimalDigit

/-!
# The spelling of integers

Integers are written in decimal. Reading is more liberal than writing: blanks around the number, a
plus sign, single underscores between digits, and the decimal digits of every script.
-/

namespace PhpAudit.Number.Integer

/-- A natural number in decimal. -/
def natChars (n : Nat) : List Char := Nat.toDigits 10 n

/-- An integer in decimal. -/
def chars (n : Int) : List Char := if n < 0 then '-' :: natChars n.natAbs else natChars n.natAbs

/-- An integer in decimal, as a string. -/
def text (n : Int) : String := String.ofList (chars n)

/-- The blanks that may surround a number: every blank but the four separators of ASCII. -/
def isMargin (c : Char) : Bool := Text.isBlank c && !(0x1C ≤ c.toNat && c.toNat ≤ 0x1F)

/-- A text without the blanks around it. -/
def withoutMargins (text : List Char) : List Char :=
  ((text.dropWhile isMargin).reverse.dropWhile isMargin).reverse

/-- The digits that a text consists of, single underscores between them being passed over. -/
def digits? : List Char → Option (List Nat)
  | [] => none
  | [c] => (Text.digitValue? c).map ([·])
  | c :: '_' :: rest => do return (← Text.digitValue? c) :: (← digits? rest)
  | c :: rest => do return (← Text.digitValue? c) :: (← digits? rest)

/-- The sign and the digits that a text consists of. -/
def parts? (text : List Char) : Option (Bool × List Nat) :=
  match withoutMargins text with
  | '-' :: rest => (digits? rest).map (true, ·)
  | '+' :: rest => (digits? rest).map (false, ·)
  | rest => (digits? rest).map (false, ·)

/-- The natural number with the given digits. -/
def ofDigits (digits : List Nat) : Nat := digits.foldl (fun n d => 10 * n + d) 0

/-- An integer from its sign and digits. -/
def ofParts (parts : Bool × List Nat) : Int :=
  if parts.1 then -(ofDigits parts.2 : Int) else ofDigits parts.2

/-- The integer that a text spells. -/
def ofChars? (text : List Char) : Option Int := (parts? text).map ofParts

end PhpAudit.Number.Integer
