import PhpAudit.Grammar.Symbol

/-!
# Numbers and quoted strings

A number is the longest text that is an integer or a float. A single-quoted string knows two
escapes. A double-quoted string, a shell command and a heredoc are cut into contents, escapes
and embedded values by one scanner (`Scan.embedded`), which differs between the three only in
what ends a piece of content.
-/

namespace PhpAudit.Grammar

namespace Source

/-- The end of `_` and digits, repeated. -/
def digitGroupsFrom (source : Source) (digit : Nat → Bool) : Nat → Nat → Nat
  | 0, i => i
  | fuel + 1, i =>
    if source.code i == 0x5F && digit (source.code (i + 1)) then
      source.digitGroupsFrom digit fuel (source.skipWhile digit (i + 1))
    else i

/-- The end of digits followed by `_` and digits, repeated. There may be no first digits. -/
def digitGroups (source : Source) (digit : Nat → Bool) (i : Nat) : Nat :=
  let j := source.skipWhile digit i
  source.digitGroupsFrom digit (source.size - j) j

/-- The end of an exponent at `i`. -/
def exponentEnd? (source : Source) (i : Nat) : Option Nat :=
  let c := source.code i
  if c == 0x65 || c == 0x45 then
    let d := source.code (i + 1)
    let j := if d == 0x2B || d == 0x2D then i + 2 else i + 1
    if Code.isDigit (source.code j) then some (source.digitGroups Code.isDigit j) else none
  else none

/-- The end of a float at `i`: it has a point or an exponent. -/
def floatEnd? (source : Source) (i : Nat) : Option Nat :=
  let j := source.digitGroups Code.isDigit i
  if source.code j == 0x2E then
    let k := source.digitGroups Code.isDigit (j + 1)
    if j == i && k == j + 1 then none
    else some ((source.exponentEnd? k).getD k)
  else source.exponentEnd? j

/-- The end of an integer at `i`: decimal, octal, hexadecimal or binary. -/
def integerEnd? (source : Source) (i : Nat) : Option Nat :=
  let c := source.code i
  let d := source.code (i + 1)
  if c == 0x30 then
    if (d == 0x78 || d == 0x58) && Code.isHexDigit (source.code (i + 2)) then
      some (source.digitGroups Code.isHexDigit (i + 2))
    else if (d == 0x62 || d == 0x42) && (source.code (i + 2) == 0x30 || source.code (i + 2) == 0x31)
    then some (source.digitGroups (fun c => c == 0x30 || c == 0x31) (i + 2))
    else if (d == 0x6F || d == 0x4F) then some (source.digitGroups Code.isOctalDigit (i + 2))
    else some (source.digitGroups Code.isOctalDigit (i + 1))
  else if Code.isDigit c then some (source.digitGroups Code.isDigit i)
  else none

/-- The end of an escape sequence whose backslash stands at `i`. -/
def escapeEnd? (source : Source) (i : Nat) : Option Nat :=
  let c := source.code (i + 1)
  if [0x6E, 0x72, 0x74, 0x76, 0x65, 0x66, 0x5C, 0x24, 0x22, 0x60].contains c then some (i + 2)
  else if Code.isOctalDigit c then
    if Code.isOctalDigit (source.code (i + 2)) then
      if Code.isOctalDigit (source.code (i + 3)) then some (i + 4) else some (i + 3)
    else some (i + 2)
  else if c == 0x78 && Code.isHexDigit (source.code (i + 2)) then
    if Code.isHexDigit (source.code (i + 3)) then some (i + 4) else some (i + 3)
  else if c == 0x75 && source.code (i + 2) == 0x7B then
    let j := source.skipWhile Code.isHexDigit (i + 3)
    if j > i + 3 && source.code j == 0x7D then some (j + 1) else none
  else none

end Source

namespace Scan

/-- An integer or a float, whichever is longer. -/
def number : Scan Pieces := afterGap fun source i =>
  match source.floatEnd? i, source.integerEnd? i with
  | some j, some k =>
    if k < j then some ([source.leaf "float" true i j], j)
    else some ([source.leaf "integer" true i k], k)
  | some j, none => some ([source.leaf "float" true i j], j)
  | none, some k => some ([source.leaf "integer" true i k], k)
  | none, none => none

def integer : Scan Pieces := afterGap fun source i => do
  let j ← source.integerEnd? i
  some ([source.leaf "integer" true i j], j)

/-- The end of the content of a single-quoted string: a quote, or a backslash in front of one or
of another backslash. -/
def singleContentEnd (source : Source) : Nat → Nat → Nat
  | 0, i => i
  | fuel + 1, i =>
    let c := source.code i
    if c == endOfSource || c == 0x27 then i
    else if c == 0x5C then
      let d := source.code (i + 1)
      if d == 0x5C || d == 0x27 || d == endOfSource then i
      else singleContentEnd source fuel (i + 2)
    else singleContentEnd source fuel (i + 1)

/-- The pieces of a single-quoted string from `i` to its closing quote, newest first. -/
def singleQuotedFrom (source : Source) : Nat → Nat → Pieces → Option (Pieces × Nat)
  | 0, _, _ => none
  | fuel + 1, i, read =>
    let c := source.code i
    if c == 0x27 then some (source.leaf "\x27" false i (i + 1) :: read, i + 1)
    else
      let j := singleContentEnd source (source.size + 1 - i) i
      if j > i then
        singleQuotedFrom source fuel j (source.leaf "string_content" true i j :: read)
      else if c == 0x5C && (source.code (i + 1) == 0x5C || source.code (i + 1) == 0x27) then
        singleQuotedFrom source fuel (i + 2) (source.leaf "escape_sequence" true i (i + 2) :: read)
      else none

/-- The end of an opening quote at `i`, with or without the letter `b` in front. -/
def openingEnd? (quote : Nat) (source : Source) (i : Nat) : Option Nat :=
  if source.code i == quote then some (i + 1)
  else if (source.code i == 0x62 || source.code i == 0x42) && source.code (i + 1) == quote then
    some (i + 2)
  else none

def singleQuoted : Scan Pieces := node "string" <| afterGap fun source i => do
  let j ← openingEnd? 0x27 source i
  let (read, k) ← singleQuotedFrom source (source.size + 1 - j) j []
  some (source.leaf "\x27" false i j :: read.reverse, k)

/-- The places in which values are embedded in text. -/
inductive Embedding where
  /-- Between double quotes. -/
  | quoted
  /-- Between backticks. -/
  | shell
  /-- Between the lines of a heredoc. -/
  | heredoc
deriving DecidableEq, Repr

/-- Whether a backslash at `i` opens an escape, and if it does not, where the content goes on. -/
def escapes (place : Embedding) (source : Source) (i : Nat) : Option Nat :=
  let c := source.code (i + 1)
  if c == 0x7B then some (i + 2)
  else if place == .shell && c == 0x60 then none
  else if place == .heredoc && c == 0x5C then some (i + 2)
  else if [0x6E, 0x72, 0x74, 0x76, 0x65, 0x66, 0x5C, 0x24, 0x22, 0x75].contains c then none
  else if c == 0x78 then if Code.isHexDigit (source.code (i + 2)) then none else some (i + 2)
  else if Code.isOctalDigit c then none
  else some (i + 1)

/-- The end of plain content from `i` on. Right after a variable, `[` and `->` belong to it. -/
def contentEndFrom (place : Embedding) (source : Source) : Bool → Nat → Nat → Nat
  | _, 0, i => i
  | afterVariable, fuel + 1, i =>
    let c := source.code i
    let d := source.code (i + 1)
    if c == endOfSource then i
    else if c == 0x22 && place == .quoted then i
    else if c == 0x60 && place == .shell then i
    else if (c == 0x0A || c == 0x0D) && place == .heredoc then i
    else if c == 0x5C then
      match escapes place source i with
      | some j => contentEndFrom place source false fuel j
      | none => i
    else if c == 0x24 then
      if Code.isNameStart d || d == 0x7B then i else contentEndFrom place source false fuel (i + 1)
    else if c == 0x5B && afterVariable then i
    else if c == 0x2D && afterVariable && d == 0x3E && Code.isNamePart (source.code (i + 2)) then i
    else if c == 0x7B && d == 0x24 then i
    else contentEndFrom place source false fuel (i + 1)

/-- The end of plain content from `i` on. -/
def contentEnd (place : Embedding) (afterVariable : Bool) (source : Source) (i : Nat) : Nat :=
  contentEndFrom place source afterVariable (source.size + 1 - i) i

/-- Content, if there is any here. -/
def content (place : Embedding) (afterVariable : Bool) : Scan Pieces := fun source i =>
  let j := contentEnd place afterVariable source i
  if j > i && source.code j != endOfSource then some ([source.leaf "string_content" true i j], j)
  else none

/-- An escape, or a backslash and `u` that begin none. -/
def escape : Scan Pieces := fun source i =>
  if source.code i == 0x5C then
    match source.escapeEnd? i with
    | some j => some ([source.leaf "escape_sequence" true i j], j)
    | none =>
      if source.code (i + 1) == 0x75 then
        some ([source.leaf "string_content" true i (i + 2)], i + 2)
      else none
  else none

/-- A token at this very place, with nothing in front of it. -/
def here (text : String) : Scan Pieces := fun source i =>
  if source.startsWith i text then
    let j := i + text.length
    some ([source.leaf text false i j], j)
  else none

/-- A variable with its plain name. -/
def variableName : Scan Pieces := node "variable_name" do
  let sign ← mark "$"
  let name ← name
  return sign ++ name

/-- What may stand between the brackets behind an embedded variable. -/
def embeddedKey : Scan Pieces := do
  match ← ahead false with
  | .mark "-" => node "unary_op_expression" do
    let sign ← mark "-"
    let value ← integer
    return sign ++ value
  | .mark "$" => variableName
  | .digit => integer
  | .word _ => name
  | _ => refuse

/-- A variable embedded without braces: alone, with one member or with one subscript. -/
def embeddedVariable (place : Embedding) : Scan Pieces := do
  let root ← variableName
  let source ← source
  let i ← position
  if source.code i == 0x5B then
    let opening ← mark "["
    let key ← embeddedKey
    let closing ← mark "]"
    wrap "subscript_expression" (root ++ opening ++ key ++ closing)
  else if source.code i == 0x2D && source.code (i + 1) == 0x3E &&
      Code.isNamePart (source.code (i + 2)) then
    let arrow ← mark "->"
    let member ← inField "name" name
    wrap "member_access_expression" (root.map (·.inField "object") ++ arrow ++ member)
  else
    let tail ← optional (content place true)
    return root ++ tail

/-- One piece of text with embedded values. -/
def embeddedPiece (rules : Rules) (place : Embedding) : Scan Pieces :=
  content place false <|> escape <|> do
    let source ← source
    let i ← position
    if source.code i == 0x24 then
      if source.code (i + 1) == 0x7B then rules .simpleVariable else embeddedVariable place
    else if source.code i == 0x7B && source.code (i + 1) == 0x24 then
      let opening ← here "\x7b"
      let value ← rules.anyExpression
      let closing ← mark "\x7d"
      return opening ++ value ++ closing
    else refuse

/-- Text with embedded values between two marks. -/
def embedded (rules : Rules) (type : String) (place : Embedding) (quote : Nat) (text : String) :
    Scan Pieces := node type do
  let opening ← afterGap fun source i => do
    let j ← if place == .shell then if source.code i == quote then some (i + 1) else none
      else openingEnd? quote source i
    some ([source.leaf text false i j], j)
  let body ← many (embeddedPiece rules place)
  let closing ← here text
  return opening ++ body ++ closing

def doubleQuoted (rules : Rules) : Scan Pieces :=
  embedded rules "encapsed_string" .quoted 0x22 "\x22"

def shellCommand (rules : Rules) : Scan Pieces :=
  embedded rules "shell_command_expression" .shell 0x60 "\x60"

/-- Blanks as heredocs know them. -/
def isHeredocBlank (c : Nat) : Bool :=
  Code.isAsciiBlank c || c == 0x1680 || (0x2000 ≤ c && c ≤ 0x2006) || (0x2008 ≤ c && c ≤ 0x200A) ||
    c == 0x2028 || c == 0x2029 || c == 0x205F || c == 0x3000

/-- What a heredoc's label is made of. -/
def isLabelPart (c : Nat) : Bool :=
  Code.isDigit c || c == 0x5F || (0x41 ≤ c && c ≤ 0x5A) || (0x61 ≤ c && c ≤ 0x7A) ||
    (0x80 ≤ c && c ≤ 0x10FFFF)

/-- Where the closing label stands if the line that begins at `i` holds it, after blanks and
empty lines. -/
def labelAt? (source : Source) (label : String) (i : Nat) : Option Nat :=
  let j := source.skipWhile isHeredocBlank i
  if source.startsWith j label && !isLabelPart (source.code (j + label.length)) then some j else none

/-- The line feed that ends the line of a heredoc's opening, or one of its lines. -/
def lineFeed : Scan Unit := fun source i =>
  if source.code i == 0x0A then some ((), i + 1)
  else if source.code i == 0x0D && source.code (i + 1) == 0x0A then some ((), i + 2)
  else none

/-- The lines of a heredoc with embedded values up to the one that holds the closing label. -/
def heredocLines (rules : Rules) (label : String) : Scan Pieces := many do
  let source ← source
  let i ← position
  let c := source.code i
  if c == 0x0A || c == 0x0D then
    require (labelAt? source label i).isNone
    moveTo (source.skipWhile (fun c => c == 0x0A || c == 0x0D) i)
    embeddedPiece rules .heredoc
  else embeddedPiece rules .heredoc

/-- The lines of a nowdoc up to the one that holds the closing label. -/
def nowdocLines (label : String) : Scan Pieces := many fun source i =>
  if (labelAt? source label i).isSome then none
  else
    let j := source.skipWhile (fun c => c != 0x0A && c != 0x0D)
      (source.skipWhile isHeredocBlank i)
    if j > i && source.code j != endOfSource then
      some ([source.leaf "nowdoc_string" true i j], j)
    else none

def closingLabel (label : String) : Scan Pieces := fun source i => do
  let j ← labelAt? source label i
  let k := j + label.length
  some ([source.leaf "heredoc_end" true j k], k)

/-- Blanks and comments behind a heredoc's opening, up to the line feed. -/
def openingRestFrom : Nat → Pieces → Scan Pieces
  | 0, read => Scan.pure read.reverse
  | fuel + 1, read => fun source i =>
    let j := source.skipWhile (fun c => Code.isBlank c && c != 0x0A && c != 0x0D) i
    match source.commentEnd? j with
    | some k => openingRestFrom fuel (source.leaf "comment" true j k :: read) source k
    | none => some (read.reverse, j)

/-- What stands between the opening line of a heredoc and its closing label. -/
def heredocBody (rules : Rules) (label : String) : Scan Pieces := do
  let head ← optional (embeddedPiece rules .heredoc)
  let tail ← heredocLines rules label
  return head ++ tail

/-- A heredoc or nowdoc. -/
def heredoc (rules : Rules) : Scan Pieces := do
  let opening ← mark "<<<"
  let source ← source
  let start := source.skipWhile isHeredocBlank (← position)
  let quote := source.code start
  let quoted := quote == 0x22 || quote == 0x27
  let first := if quoted then source.skipWhile isHeredocBlank (start + 1) else start
  let upTo := source.skipWhile isLabelPart first
  require (upTo > first)
  require (!quoted || source.code upTo == quote)
  let label := source.text first upTo
  let mark (i : Nat) : Pieces :=
    if quoted then [source.leaf (if quote == 0x22 then "\x22" else "\x27") false i (i + 1)] else []
  let identifier := (source.leaf "heredoc_start" true first upTo).inField "identifier"
  moveTo (if quoted then upTo + 1 else upTo)
  let rest ← openingRestFrom (source.size + 1) []
  let bodyStart ← position
  lineFeed
  let type := if quote == 0x27 then "nowdoc" else "heredoc"
  let lines ←
    if (labelAt? source label (← position)).isSome then Scan.pure []
    else if quote == 0x27 then nowdocLines label else heredocBody rules label
  let bodyEnd ← position
  let bodyType := if quote == 0x27 then "nowdoc_body" else "heredoc_body"
  let body : Pieces := if lines.isEmpty then [] else
    [.node bodyType true (some "value") (source.span bodyStart bodyEnd) lines]
  let closing ← inField "end_tag" (closingLabel label)
  wrap type (opening ++ mark start ++ [identifier] ++ mark upTo ++ rest ++ body ++ closing)

end Scan

end PhpAudit.Grammar
