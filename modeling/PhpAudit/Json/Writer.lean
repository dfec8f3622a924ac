import PhpAudit.Json.Basic
import PhpAudit.Text.Quoted

/-!
# Writing JSON

A document is written compactly, or with each item on a line of its own, four blanks further in
than what holds it. A list or an object without parts is written on one line either way. In texts
only the quote, the backslash and the control characters are escaped.
-/

namespace PhpAudit.Json

/-- A character inside a text. -/
def escapedChar (c : Char) : List Char :=
  if c == '"' then ['\\', '"']
  else if c == '\\' then ['\\', '\\']
  else if c == '\n' then ['\\', 'n']
  else if c == '\r' then ['\\', 'r']
  else if c == '\t' then ['\\', 't']
  else if c.toNat == 0x08 then ['\\', 'b']
  else if c.toNat == 0x0C then ['\\', 'f']
  else if c.toNat < 0x20 then ['\\', 'u'] ++ Text.Quoted.hex 4 c.toNat
  else [c]

/-- A text in quotes. -/
def written (chars : List Char) : List Char := '"' :: chars.flatMap escapedChar ++ ['"']

/-- Where a document has blanks. -/
inductive Style where
  | compact
  | pretty
deriving DecidableEq, Repr

namespace Style

/-- What stands in front of a part at the given depth, and behind the last part. -/
def newline : Style → Nat → List Char
  | .compact, _ => []
  | .pretty, depth => '\n' :: List.replicate (4 * depth) ' '

/-- What stands between a name and its value. -/
def colon : Style → List Char
  | .compact => [':']
  | .pretty => [':', ' ']

end Style

mutual

/-- A document as written at the given depth. -/
def Document.write (style : Style) (depth : Nat) : Document → List Char
  | .null => "null".toList
  | .bool b => boolToken b
  | .num token => token
  | .str chars => written chars
  | .list [] => ['[', ']']
  | .list (item :: rest) =>
    '[' :: style.newline (depth + 1) ++ item.write style (depth + 1) ++
      writeItems style (depth + 1) rest ++ style.newline depth ++ [']']
  | .object [] => ['\x7b', '\x7d']
  | .object ((name, value) :: rest) =>
    '\x7b' :: style.newline (depth + 1) ++ written name ++ style.colon ++
      value.write style (depth + 1) ++ writeFields style (depth + 1) rest ++
      style.newline depth ++ ['\x7d']

/-- The items of a list after the first. -/
def writeItems (style : Style) (depth : Nat) : List Document → List Char
  | [] => []
  | item :: rest =>
    ',' :: style.newline depth ++ item.write style depth ++ writeItems style depth rest

/-- The fields of an object after the first. -/
def writeFields (style : Style) (depth : Nat) : List (List Char × Document) → List Char
  | [] => []
  | (name, value) :: rest =>
    ',' :: style.newline depth ++ written name ++ style.colon ++ value.write style depth ++
      writeFields style depth rest

end

def Document.render (style : Style) (document : Document) : String := String.ofList (document.write style 0)

end PhpAudit.Json
