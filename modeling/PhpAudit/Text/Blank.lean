import PhpAudit.Text.Ranges

/-!
# Blanks

Two sets of blank characters: the six of ASCII, which alone make a source blank, and those of
Unicode together with the four separators U+001C to U+001F, which are stripped from texts.
-/

namespace PhpAudit.Text

/-- The six ASCII blanks: space, tab, line feed, vertical tab, form feed and carriage return. -/
def isAsciiBlankByte (b : UInt8) : Bool := b == 0x20 || (0x09 ≤ b && b ≤ 0x0D)

def blankRanges : Ranges := [
    (0x09, 0x0D), (0x1C, 0x20), (0x85, 0x85), (0xA0, 0xA0), (0x1680, 0x1680), (0x2000, 0x200A),
    (0x2028, 0x2029), (0x202F, 0x202F), (0x205F, 0x205F), (0x3000, 0x3000)]

def isBlank (c : Char) : Bool := blankRanges.contains c.toNat

/-- A text without the blanks in front of it. -/
def stripStart (text : List Char) : List Char := text.dropWhile isBlank

/-- A text without the blanks behind it. -/
def stripEnd (text : List Char) : List Char := (text.reverse.dropWhile isBlank).reverse

/-- A text without the blanks around it. -/
def strip (text : List Char) : List Char := stripEnd (stripStart text)

end PhpAudit.Text
