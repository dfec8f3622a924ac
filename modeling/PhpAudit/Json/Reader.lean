import PhpAudit.Json.Basic

/-!
# Reading JSON

A reader for the whole format. Blanks may stand around every token; numbers keep the token that
writes them; a control character inside a text is refused, and so is anything behind the document.
`words` lists further words that may stand where a number may, for dialects that have them.
-/

namespace PhpAudit.Json

/-- A reader takes part of the text and leaves the rest. -/
abbrev Reader (α : Type) : Type := List Char → Option (α × List Char)

/-- The four blanks of the format. -/
def isBlank (c : Char) : Bool := c == ' ' || c == '\n' || c == '\r' || c == '\t'

/-- A text without the blanks in front. -/
def skipBlanks (text : List Char) : List Char := text.dropWhile isBlank

/-- The rest of a text behind a fixed beginning. -/
def after? : List Char → List Char → Option (List Char)
  | [], text => some text
  | c :: word, d :: text => if c = d then after? word text else none
  | _ :: _, [] => none

/-! ## Numbers -/

/-- Takes the digits in front, of which there must be one. -/
def digits1 (text : List Char) : Option (List Char × List Char) :=
  match text.span Char.isDigit with
  | ([], _) => none
  | (digits, rest) => some (digits, rest)

/-- Takes the whole part of a number: a zero, or digits that start with another one. -/
def wholePart : Reader (List Char)
  | '0' :: rest => some (['0'], rest)
  | text => digits1 text

/-- Takes the fraction of a number, if it has one. -/
def fraction : Reader (List Char)
  | '.' :: rest =>
    match digits1 rest with
    | some (digits, rest) => some ('.' :: digits, rest)
    | none => some ([], '.' :: rest)
  | text => some ([], text)

/-- Takes the sign of an exponent, if it has one. -/
def exponentSign : List Char → List Char × List Char
  | '+' :: rest => (['+'], rest)
  | '-' :: rest => (['-'], rest)
  | text => ([], text)

/-- Takes the exponent of a number, if it has one. -/
def exponent : Reader (List Char)
  | c :: rest =>
    if c == 'e' || c == 'E' then
      let (sign, digits) := exponentSign rest
      match digits1 digits with
      | some (digits, rest) => some (c :: sign ++ digits, rest)
      | none => some ([], c :: rest)
    else some ([], c :: rest)
  | [] => some ([], [])

def number (text : List Char) : Option (List Char × List Char) := do
  let (sign, text) := match text with
    | '-' :: rest => (['-'], rest)
    | text => ([], text)
  let (whole, text) ← wholePart text
  let (fraction, text) ← fraction text
  let (exponent, text) ← exponent text
  return (sign ++ whole ++ fraction ++ exponent, text)

/-! ## Texts -/

/-- The value of a hexadecimal digit. -/
def hexValue? (c : Char) : Option Nat :=
  if '0' ≤ c && c ≤ '9' then some (c.toNat - '0'.toNat)
  else if 'a' ≤ c && c ≤ 'f' then some (c.toNat - 'a'.toNat + 10)
  else if 'A' ≤ c && c ≤ 'F' then some (c.toNat - 'A'.toNat + 10)
  else none

/-- Takes four hexadecimal digits. -/
def hex4 : Reader Nat
  | a :: b :: c :: d :: rest => do
    let n := ((← hexValue? a) * 16 + (← hexValue? b)) * 16 + (← hexValue? c)
    return (n * 16 + (← hexValue? d), rest)
  | _ => none

/-- The character that the letter of a short escape stands for. -/
def shortEscape? : Char → Option Char
  | '"' => some '"'
  | '\\' => some '\\'
  | '/' => some '/'
  | 'b' => some (Char.ofNat 0x08)
  | 'f' => some (Char.ofNat 0x0C)
  | 'n' => some '\n'
  | 'r' => some '\r'
  | 't' => some '\t'
  | _ => none

/-- The character of a code unit. Half a surrogate pair stands for no character. -/
def unitChar (n : Nat) : Char :=
  if 0xD800 ≤ n && n ≤ 0xDFFF then Char.ofNat 0xFFFD else Char.ofNat n

/-- Takes the second half of a surrogate pair. -/
def lowHalf? : List Char → Option (Nat × List Char)
  | '\\' :: 'u' :: rest =>
    match hex4 rest with
    | some (n, rest) => if 0xDC00 ≤ n && n ≤ 0xDFFF then some (n, rest) else none
    | none => none
  | _ => none

/-- Takes what follows the backslash of an escape. -/
def escape : Reader Char
  | 'u' :: rest => do
    let (high, rest) ← hex4 rest
    if 0xD800 ≤ high && high ≤ 0xDBFF then
      match lowHalf? rest with
      | some (low, rest) => some (Char.ofNat (0x10000 + (high - 0xD800) * 0x400 + (low - 0xDC00)), rest)
      | none => some (unitChar high, rest)
    else some (unitChar high, rest)
  | c :: rest => (shortEscape? c).map (·, rest)
  | [] => none

/-- Takes a text up to its closing quote, the opening one being taken. -/
def textBody : Nat → Reader (List Char)
  | 0, _ => none
  | _ + 1, [] => none
  | _ + 1, '"' :: rest => some ([], rest)
  | fuel + 1, '\\' :: rest => do
    let (c, rest) ← escape rest
    let (chars, rest) ← textBody fuel rest
    return (c :: chars, rest)
  | fuel + 1, c :: rest =>
    if c.toNat < 0x20 then none
    else do
      let (chars, rest) ← textBody fuel rest
      return (c :: chars, rest)

def quotedText : Reader (List Char)
  | '"' :: rest => textBody (rest.length + 1) rest
  | _ => none

/-! ## Documents -/

/-- Takes one of some words. -/
def oneOf (words : List (List Char)) (text : List Char) : Option (List Char × List Char) :=
  words.findSome? fun word => (after? word text).map (word, ·)

/-- Takes a document without parts. -/
def scalar (words : List (List Char)) (text : List Char) : Option (Document × List Char) :=
  match after? "null".toList text with
  | some rest => some (.null, rest)
  | none =>
    match after? "true".toList text with
    | some rest => some (.bool true, rest)
    | none =>
      match after? "false".toList text with
      | some rest => some (.bool false, rest)
      | none =>
        match oneOf words text with
        | some (word, rest) => some (.num word, rest)
        | none => (number text).map fun (token, rest) => (.num token, rest)

/-- Takes the colon behind a name. -/
def colonAfter (text : List Char) : Option (List Char) :=
  match skipBlanks text with
  | ':' :: rest => some rest
  | _ => none

mutual

/-- Takes a document, with the blanks in front of it. -/
def document (words : List (List Char)) : Nat → Reader Document
  | 0, _ => none
  | fuel + 1, text =>
    match skipBlanks text with
    | '[' :: rest =>
      match skipBlanks rest with
      | ']' :: rest => some (.list [], rest)
      | _ => do
        let (item, rest) ← document words fuel rest
        let (items, rest) ← moreItems words fuel rest
        return (.list (item :: items), rest)
    | '\x7b' :: rest =>
      match skipBlanks rest with
      | '\x7d' :: rest => some (.object [], rest)
      | rest => do
        let (field, rest) ← field words fuel rest
        let (fields, rest) ← moreFields words fuel rest
        return (.object (field :: fields), rest)
    | '"' :: rest => do
      let (chars, rest) ← quotedText ('"' :: rest)
      return (.str chars, rest)
    | text => scalar words text

/-- Takes the items of a list after the first, and the closing bracket. -/
def moreItems (words : List (List Char)) : Nat → Reader (List Document)
  | 0, _ => none
  | fuel + 1, text =>
    match skipBlanks text with
    | ']' :: rest => some ([], rest)
    | ',' :: rest => do
      let (item, rest) ← document words fuel rest
      let (items, rest) ← moreItems words fuel rest
      return (item :: items, rest)
    | _ => none

/-- Takes the fields of an object after the first, and the closing brace. -/
def moreFields (words : List (List Char)) : Nat → Reader (List (List Char × Document))
  | 0, _ => none
  | fuel + 1, text =>
    match skipBlanks text with
    | '\x7d' :: rest => some ([], rest)
    | ',' :: rest => do
      let (field, rest) ← field words fuel (skipBlanks rest)
      let (fields, rest) ← moreFields words fuel rest
      return (field :: fields, rest)
    | _ => none

/-- Takes a field of an object. -/
def field (words : List (List Char)) : Nat → Reader (List Char × Document)
  | 0, _ => none
  | fuel + 1, text => do
    let (name, rest) ← quotedText text
    let (value, rest) ← document words fuel (← colonAfter rest)
    return ((name, value), rest)

end

/-- The document that a text holds, with blanks around it and nothing else. -/
def readWith? (words : List (List Char)) (text : List Char) : Option Document := do
  let (document, rest) ← document words (2 * text.length + 2) text
  if (skipBlanks rest).isEmpty then some document else none

/-- The document that a text of the plain format holds. -/
def read? (text : List Char) : Option Document := readWith? [] text

end PhpAudit.Json
