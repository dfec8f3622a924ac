import PhpAudit.Text.Printable

/-!
# Quoted texts

A text in quotes, on one line and with every invisible character spelled out. Single quotes are
used unless the text holds a single quote and no double one.
-/

namespace PhpAudit.Text.Quoted

/-- A hexadecimal number in small letters with at least so many digits. -/
def hex (width n : Nat) : List Char :=
  let digits := Nat.toDigits 16 n
  List.replicate (width - digits.length) '0' ++ digits

def quoteChar (quote c : Char) : List Char :=
  if c == quote || c == '\\' then ['\\', c]
  else if c == '\t' then ['\\', 't']
  else if c == '\n' then ['\\', 'n']
  else if c == '\r' then ['\\', 'r']
  else if isPrintable c then [c]
  else if c.toNat ≤ 0xFF then ['\\', 'x'] ++ hex 2 c.toNat
  else if c.toNat ≤ 0xFFFF then ['\\', 'u'] ++ hex 4 c.toNat
  else ['\\', 'U'] ++ hex 8 c.toNat

/-- The quotes that a text takes. -/
def quoteOf (text : List Char) : Char :=
  if text.contains '\'' && !text.contains '"' then '"' else '\''

def quoted (text : List Char) : List Char :=
  let quote := quoteOf text
  quote :: text.flatMap (quoteChar quote) ++ [quote]

end PhpAudit.Text.Quoted
