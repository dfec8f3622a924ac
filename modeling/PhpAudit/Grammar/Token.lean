import PhpAudit.Grammar.Scan

/-!
# Tokens

Blanks, comments and interposed text are skipped in front of a token; the token itself is the
longest that fits. A keyword is a whole word compared without regard to case, and only where the
grammar asks for it: everywhere else the same word is a plain name.

A statement may be ended by `?>` in place of a semicolon. Where that is possible a scan is told
so (`closes`), and then `?>` ends the expression in front of it instead of interposing text.
-/

namespace PhpAudit.Grammar

namespace Code

/-- The code of an ASCII digit. -/
def isDigit (c : Nat) : Bool := 0x30 ≤ c && c ≤ 0x39

/-- The code of a hexadecimal digit. -/
def isHexDigit (c : Nat) : Bool :=
  isDigit c || (0x41 ≤ c && c ≤ 0x46) || (0x61 ≤ c && c ≤ 0x66)

/-- The code of an octal digit. -/
def isOctalDigit (c : Nat) : Bool := 0x30 ≤ c && c ≤ 0x37

/-- The six ASCII blanks. -/
def isAsciiBlank (c : Nat) : Bool := c == 0x20 || (0x09 ≤ c && c ≤ 0x0D)

/-- Four characters that are blank between tokens but letters to no one. -/
def isWideBlank (c : Nat) : Bool := c == 0xA0 || c == 0x200B || c == 0x2060 || c == 0xFEFF

/-- What may stand between two tokens. -/
def isBlank (c : Nat) : Bool := isAsciiBlank c || isWideBlank c

/-- What a name may begin with: a letter, an underscore, or any character from U+0080 on that
is not blank. -/
def isNameStart (c : Nat) : Bool :=
  c == 0x5F || (0x41 ≤ c && c ≤ 0x5A) || (0x61 ≤ c && c ≤ 0x7A) ||
    (0x80 ≤ c && c ≤ 0x10FFFF && !isWideBlank c)

/-- What a name may go on with. -/
def isNamePart (c : Nat) : Bool := isNameStart c || isDigit c

end Code

namespace Source

/-- Whether a close tag stands at a position. -/
def closeTagAt (source : Source) (i : Nat) : Bool := source.code i == 0x3F && source.code (i + 1) == 0x3E

/-- The end of a line comment's text: the line's end or a close tag. A question mark that no `>`
follows takes the next character with it. -/
def lineCommentEndFrom (source : Source) : Nat → Nat → Nat
  | 0, i => i
  | fuel + 1, i =>
    let c := source.code i
    if c == endOfSource || c == 0x0A || c == 0x0D then i
    else if c == 0x3F then
      let d := source.code (i + 1)
      if d == 0x0A then i + 2
      else if d == 0x0D then if source.code (i + 2) == 0x0A then i + 3 else i
      else if d == 0x3E || d == endOfSource then i
      else source.lineCommentEndFrom fuel (i + 2)
    else source.lineCommentEndFrom fuel (i + 1)

/-- The end of a line comment whose text begins at `i`. -/
def lineCommentEnd (source : Source) (i : Nat) : Nat :=
  source.lineCommentEndFrom (source.size + 1 - i) i

/-- The end of a block comment whose text begins at `i`, if it is closed. -/
def blockCommentEndFrom (source : Source) : Nat → Nat → Option Nat
  | 0, _ => none
  | fuel + 1, i =>
    if source.code i == endOfSource then none
    else if source.code i == 0x2A && source.code (i + 1) == 0x2F then some (i + 2)
    else source.blockCommentEndFrom fuel (i + 1)

/-- The end of the comment that begins at `i`, if one does. A `#` directly followed by `[` opens
attributes instead. -/
def commentEnd? (source : Source) (i : Nat) : Option Nat :=
  let c := source.code i
  let d := source.code (i + 1)
  if c == 0x23 then
    if d == 0x5B then none
    else if d == 0x3F || d == 0x0A || d == 0x0D || d == endOfSource then some (i + 1)
    else some (source.lineCommentEnd (i + 2))
  else if c == 0x2F && d == 0x2F then some (source.lineCommentEnd (i + 2))
  else if c == 0x2F && d == 0x2A then source.blockCommentEndFrom (source.size - i) (i + 2)
  else none

/-- The end of the open tag at `i`, if there is one: `<?php` in any case, `<?=` or `<?`. -/
def openTagEnd? (source : Source) (i : Nat) : Option Nat :=
  if source.code i == 0x3C && source.code (i + 1) == 0x3F then
    let letter (k low : Nat) : Bool := source.code (i + k) == low || source.code (i + k) + 32 == low
    if letter 2 0x70 && letter 3 0x68 && letter 4 0x70 then some (i + 5)
    else if source.code (i + 2) == 0x3D then some (i + 3)
    else some (i + 2)
  else none

/-- The end of the text token at `i`: a lone `<`, or anything up to the next `<`. -/
def textTokenEnd? (source : Source) (i : Nat) : Option Nat :=
  let c := source.code i
  if c == endOfSource || Code.isAsciiBlank c then none
  else if c == 0x3C then if source.code (i + 1) == 0x3F then none else some (i + 1)
  else some (source.skipWhile (· != 0x3C) (i + 1))

/-- The end of the last text token from `i` on, blanks between tokens being skipped. -/
def textEndFrom (source : Source) : Nat → Nat → Nat
  | 0, i => i
  | fuel + 1, i =>
    match source.textTokenEnd? (source.skipWhile Code.isAsciiBlank i) with
    | some j => source.textEndFrom fuel j
    | none => i

/-- The text outside of tags that begins at `i` after blanks, if there is any. -/
def text? (source : Source) (i : Nat) : Option (Nat × Nat) :=
  let start := source.skipWhile Code.isAsciiBlank i
  match source.textTokenEnd? start with
  | some j => some (start, source.textEndFrom (source.size - start) j)
  | none => none

/-- A node without children. -/
def leaf (source : Source) (type : String) (named : Bool) (i j : Nat) : Tree :=
  .node type named none (source.span i j) []

/-- The text interposed between a close tag at `i` and the next open tag or the end. -/
def interposed (source : Source) (i : Nat) : Tree × Nat :=
  let close := source.leaf "php_end_tag" true i (i + 2)
  let (text, j) := match source.text? (i + 2) with
    | some (start, j) => ([source.leaf "text" true start j], j)
    | none => ([], i + 2)
  let k := source.skipWhile Code.isAsciiBlank j
  let (reopen, k) := match source.openTagEnd? k with
    | some l => ([source.leaf "php_tag" true k l], l)
    | none => ([], k)
  (.node "text_interpolation" true none (source.span i k) (close :: text ++ reopen), k)

/-- What stands in front of the next token, newest first, and where that token begins. -/
def gapFrom (source : Source) : Nat → Nat → Pieces → Pieces × Nat
  | 0, i, read => (read, i)
  | fuel + 1, i, read =>
    let i := source.skipWhile Code.isBlank i
    match source.commentEnd? i with
    | some j => source.gapFrom fuel j (source.leaf "comment" true i j :: read)
    | none =>
      if source.closeTagAt i then
        let (tree, j) := source.interposed i
        source.gapFrom fuel j (tree :: read)
      else (read, i)

/-- What stands in front of the next token, and where that token begins. -/
def gap (source : Source) (i : Nat) : Pieces × Nat :=
  let (read, j) := source.gapFrom (source.size + 1 - i) i []
  (read.reverse, j)

/-- Skips blanks and `//` comments up to the line's end, whatever they hold. -/
def closeSearchFrom (source : Source) : Nat → Nat → Nat
  | 0, i => i
  | fuel + 1, i =>
    let i := source.skipWhile Code.isAsciiBlank i
    if source.code i == 0x2F && source.code (i + 1) == 0x2F then
      source.closeSearchFrom fuel (source.skipWhile (· != 0x0A) (i + 2))
    else i

/-- The place and preceding comments of a close tag that ends a statement here, comments newest
first. -/
def statementCloseFrom (source : Source) : Nat → Nat → Pieces → Option (Pieces × Nat)
  | 0, _, _ => none
  | fuel + 1, i, read =>
    if source.closeTagAt (source.closeSearchFrom (source.size - i) i) then some (read, i)
    else
      let j := source.skipWhile Code.isBlank i
      match source.commentEnd? j with
      | some k => source.statementCloseFrom fuel k (source.leaf "comment" true j k :: read)
      | none => none

/-- Whether a close tag can end a statement here, with the comments in front of the place. -/
def statementClose? (source : Source) (i : Nat) : Option (Pieces × Nat) :=
  (source.statementCloseFrom (source.size + 1 - i) i []).map fun (read, j) => (read.reverse, j)

/-- The tokens made of punctuation, longest first. -/
def punctuation : List String :=
  ["<<<", "<=>", "===", "!==", "**=", "...", "??=", "?->", "<<=", ">>=",
    "->", "=>", "::", "==", "!=", "<>", "<=", ">=", "&&", "||", "??", "++", "--", "+=", "-=",
    "*=", "/=", ".=", "%=", "&=", "|=", "^=", "<<", ">>", "**", "|>", "#[",
    "(", ")", "[", "]", "\x7b", "\x7d", ";", ",", ":", "?", "=", "<", ">", "+", "-", "*", "/",
    ".", "%", "&", "|", "^", "!", "~", "@", "$", "\\", "\x60", "\x22", "\x27"]

/-- The longest punctuation token at a position. -/
def punctuation? (source : Source) (i : Nat) : Option String :=
  punctuation.find? (source.startsWith i ·)

end Source

namespace Scan

/-- What the next token is, as far as the choice of a rule needs to know. -/
inductive Ahead where
  | mark (text : String)
  | word (lower : String)
  | digit
  | nothing
deriving DecidableEq, Repr

/-- The word with its ASCII capitals made small. -/
def lower (text : String) : String := String.ofList (text.toList.map Char.toLower)

/-- The kind of the token that begins at a position. -/
def aheadAt (source : Source) (i : Nat) : Ahead :=
  let c := source.code i
  if Code.isNameStart c then .word (lower (source.text i (source.skipWhile Code.isNamePart i)))
  else if Code.isDigit c then .digit
  else match source.punctuation? i with
    | some text => .mark text
    | none => .nothing

/-- The next token's kind. With `closes`, a close tag ends the statement and nothing follows. -/
def ahead (closes : Bool) : Scan Ahead := fun source i =>
  if closes && (source.statementClose? i).isSome then some (.nothing, i)
  else some (aheadAt source (source.gap i).2, i)

/-- Skips what stands in front of a token and reads the token at the position found. -/
def afterGap (scan : Source → Nat → Option (Pieces × Nat)) : Scan Pieces := fun source i =>
  let (extras, j) := source.gap i
  match scan source j with
  | some (pieces, k) => some (extras ++ pieces, k)
  | none => none

/-- The given punctuation, where no longer token stands. -/
def mark (text : String) : Scan Pieces := afterGap fun source i =>
  if source.punctuation? i == some text then
    let j := i + text.length
    some ([source.leaf text false i j], j)
  else none

/-- The given punctuation, whether or not a longer token begins with it. -/
def markOpening (text : String) : Scan Pieces := afterGap fun source i =>
  if source.startsWith i text then
    let j := i + text.length
    some ([source.leaf text false i j], j)
  else none

def wordEnd? (source : Source) (i : Nat) : Option Nat :=
  if Code.isNameStart (source.code i) then some (source.skipWhile Code.isNamePart i) else none

/-- The given keyword, in any case. -/
def keyword (text : String) : Scan Pieces := afterGap fun source i => do
  let j ← wordEnd? source i
  if lower (source.text i j) == text then some ([source.leaf text false i j], j) else none

/-- Any word, as a name. -/
def name : Scan Pieces := afterGap fun source i => do
  let j ← wordEnd? source i
  some ([source.leaf "name" true i j], j)

/-- Any word, as a construct of the given type that has no children of interest. -/
def wordAs (type : String) : Scan Pieces := afterGap fun source i => do
  let j ← wordEnd? source i
  some ([.node type true none (source.span i j) [source.leaf (lower (source.text i j)) false i j]], j)

/-- The end of a statement: a semicolon, or the place in front of a close tag. -/
def statementEnd : Scan Pieces := fun source i =>
  match source.statementClose? i with
  | some answer => some answer
  | none => mark ";" source i

/-- Goes on only when the next token is the given mark. -/
def nextIs (closes : Bool) (text : String) : Scan Bool := do
  return (← ahead closes) == .mark text

/-- The pieces of a reader when the next token is the given mark, else nothing. -/
def whenMark (text : String) (scan : Scan Pieces) : Scan Pieces := do
  if (← ahead false) == .mark text then scan else return []

/-- The pieces of a reader when the next token is the given word, else nothing. -/
def whenWord (text : String) (scan : Scan Pieces) : Scan Pieces := do
  if (← ahead false) == .word text then scan else return []

/-- One or more items with a separator between them. -/
def separated (separator : String) (item : Scan Pieces) : Scan Pieces := do
  let head ← item
  let tail ← many do
    let mark ← mark separator
    let item ← item
    return mark ++ item
  return head ++ tail

/-- One or more items with commas between them. -/
def commaList (item : Scan Pieces) : Scan Pieces := separated "," item

/-- Any number of items with commas between them, the last of which may have one behind it. -/
def looseCommaList (item : Scan Pieces) : Scan Pieces := optional do
  let items ← commaList item
  let comma ← optional (mark ",")
  return items ++ comma

end Scan

end PhpAudit.Grammar
