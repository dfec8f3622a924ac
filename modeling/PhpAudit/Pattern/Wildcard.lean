import PhpAudit.Pattern.Basic

/-!
# Wildcards

Patterns for names: `*` stands for any text, `?` for any character, and brackets for one character
of a set, which an exclamation mark in front turns into its complement. A bracket that is never
closed stands for itself. A wildcard matches whole names, and slashes are characters like others.
-/

namespace PhpAudit

/-- A piece of a wildcard. -/
inductive Wild where
  | many
  | single (set : CharSet)
deriving Repr

namespace Wildcard

/-- The end of a text and everything in front of it that is still a suffix, longest first. -/
def suffixes : List Char → List (List Char)
  | [] => [[]]
  | c :: rest => (c :: rest) :: suffixes rest

/-- Whether some pieces match a whole text. -/
def matchesAll : List Wild → List Char → Bool
  | [], text => text.isEmpty
  | .many :: rest, text => (suffixes text).any (matchesAll rest)
  | .single _ :: _, [] => false
  | .single set :: rest, c :: text => set.contains c && matchesAll rest text

/-! ## Sets in brackets -/

/-- Cuts the content of brackets at the first hyphen that may stand in a range: one with at least
`skip` characters in front of it. -/
def cutAtHyphen (skip : Nat) (content : List Char) : List Char × Option (List Char) :=
  match (content.drop skip).span (· != '-') with
  | (chunk, _ :: rest) => (content.take skip ++ chunk, some rest)
  | (chunk, []) => (content.take skip ++ chunk, none)

/-- The parts of the content of brackets between the hyphens of ranges. A hyphen at the end is a
character. -/
def chunks : Nat → Nat → List Char → List (List Char)
  | 0, _, content => [content]
  | fuel + 1, skip, content =>
    match cutAtHyphen skip content with
    | (chunk, none) => [chunk]
    | (chunk, some []) => [chunk ++ ['-']]
    | (chunk, some rest) => chunk :: chunks fuel 2 rest

/-- Puts a chunk in front of others. A range with its bounds in the wrong order holds nothing, and
the two chunks around it become one. -/
def joinChunk (chunk : List Char) : List (List Char) → List (List Char)
  | [] => [chunk]
  | next :: rest =>
    match chunk.getLast?, next with
    | some low, high :: others =>
      if high < low then (chunk.dropLast ++ others) :: rest else chunk :: next :: rest
    | _, _ => chunk :: next :: rest

/-- The ranges between chunks. -/
def rangesOf : List (List Char) → CharSet
  | chunk :: next :: rest =>
    match chunk.getLast?, next.head? with
    | some low, some high => .union (.range low high) (rangesOf (next :: rest))
    | _, _ => rangesOf (next :: rest)
  | _ => .none

def setOf (chars : List Char) : CharSet := chars.foldr (fun c set => .union (.one c) set) .none

/-- The set that the content of brackets stands for. -/
def bracketSet (content : List Char) : CharSet :=
  let (negated, content) := match content with
    | '!' :: rest => (true, rest)
    | content => (false, content)
  let parts := (chunks content.length 1 content).foldr joinChunk []
  let set := .union (setOf parts.flatten) (rangesOf parts)
  if negated then .not set else set

/-- The content of brackets and what follows them, the opening one being taken. A closing bracket
in front, or right behind an exclamation mark, is a character. -/
def takeBrackets? (text : List Char) : Option (List Char × List Char) :=
  let (mark, text) := match text with
    | '!' :: rest => (['!'], rest)
    | text => ([], text)
  let (bracket, text) := match text with
    | ']' :: rest => ([']'], rest)
    | text => ([], text)
  match text.span (· != ']') with
  | (content, _ :: rest) => some (mark ++ bracket ++ content, rest)
  | (_, []) => none

def pieces : Nat → List Char → List Wild
  | 0, _ => []
  | _ + 1, [] => []
  | fuel + 1, c :: rest =>
    if c == '*' then .many :: pieces fuel rest
    else if c == '?' then .single (.not .none) :: pieces fuel rest
    else if c == '[' then
      match takeBrackets? rest with
      | some (content, rest) => .single (bracketSet content) :: pieces fuel rest
      | none => .single (.one '[') :: pieces fuel rest
    else .single (.one c) :: pieces fuel rest

/-- Whether a name matches a wildcard as a whole. -/
def matchesName (wildcard name : String) : Bool :=
  matchesAll (pieces (wildcard.length + 1) wildcard.toList) name.toList

end Wildcard

end PhpAudit
