import PhpAudit.Pattern.Basic
import PhpAudit.Number.Integer
import PhpAudit.Text.Quoted

/-!
# Reading patterns

The notation of patterns: literal characters, the dot, sets in brackets, `\d`, `\w`, `\s` and `\b`,
the quantifiers, alternatives, groups and anchors. A pattern that is not well formed is refused
with the place where it goes wrong.
-/

namespace PhpAudit.Pattern

/-! ## Faults -/

/-- What is wrong with a pattern. -/
inductive Cause where
  | unterminatedSet
  | unterminatedGroup
  | nothingToRepeat
  | multipleRepeat
  | reversedBounds
  | missingName
  | unterminatedName
  | danglingBackslash
  | badEscape (c : Char)
  | badRange (low high : String)
  | unbalanced
  | unexpectedEnd
  | unknownExtension (text : String)
deriving DecidableEq, Repr

/-- What is wrong with a pattern, and where. -/
structure Fault where
  cause : Cause
  position : Nat
deriving DecidableEq, Repr

/-- What went wrong, in words. -/
def Cause.text : Cause → String
  | .unterminatedSet => "unterminated character set"
  | .unterminatedGroup => "missing ), unterminated subpattern"
  | .nothingToRepeat => "nothing to repeat"
  | .multipleRepeat => "multiple repeat"
  | .reversedBounds => "min repeat greater than max repeat"
  | .missingName => "missing group name"
  | .unterminatedName => "missing >, unterminated name"
  | .danglingBackslash => "bad escape (end of pattern)"
  | .badEscape c => "bad escape \\" ++ String.singleton c
  | .badRange low high => "bad character range " ++ low ++ "-" ++ high
  | .unbalanced => "unbalanced parenthesis"
  | .unexpectedEnd => "unexpected end of pattern"
  | .unknownExtension text => "unknown extension ?" ++ text

/-- The message of a fault. The line and the column are given for a pattern of several lines. -/
def Fault.message (pattern : List Char) (fault : Fault) : String :=
  let before := pattern.take fault.position
  let column := (before.reverse.takeWhile (· != '\n')).length + 1
  let place :=
    if pattern.contains '\n' then
      " (line " ++ Number.Integer.text (before.count '\n' + 1 : Nat) ++ ", column " ++
        Number.Integer.text column ++ ")"
    else ""
  fault.cause.text ++ " at position " ++ Number.Integer.text fault.position ++ place

/-! ## Tokens -/

/-- A character of a pattern, or one behind a backslash. -/
inductive Token where
  | plain (c : Char)
  | escaped (c : Char)
  /-- A backslash with nothing behind it. -/
  | dangling
deriving DecidableEq, Repr

/-- The tokens of a pattern, each with its position. -/
def tokensFrom (position : Nat) : List Char → List (Token × Nat)
  | [] => []
  | '\\' :: c :: rest => (.escaped c, position) :: tokensFrom (position + 2) rest
  | ['\\'] => [(.dangling, position)]
  | c :: rest => (.plain c, position) :: tokensFrom (position + 1) rest

/-- How a token is written. -/
def Token.text : Token → String
  | .plain c => String.singleton c
  | .escaped c => String.ofList ['\\', c]
  | .dangling => "\\"

/-- The tokens that are still to be read, and the length of the whole pattern. -/
structure Input where
  tokens : List (Token × Nat)
  size : Nat
deriving Repr

/-- The position of the next token. -/
def Input.position (input : Input) : Nat :=
  match input.tokens with
  | (_, position) :: _ => position
  | [] => input.size

/-- The input behind its first token. A backslash at the very end is refused as soon as it is the
next token. -/
def advance (input : Input) : Except Fault Input :=
  match input.tokens.tail with
  | [(.dangling, position)] => .error ⟨.danglingBackslash, position⟩
  | rest => .ok { input with tokens := rest }

def Input.next? (input : Input) : Option Token := input.tokens.head?.map Prod.fst

/-- Takes a given character if it is next. -/
def accept (c : Char) (input : Input) : Except Fault (Bool × Input) := do
  if input.next? == some (.plain c) then return (true, ← advance input) else return (false, input)

/-- Takes the digits that are next. -/
def takeDigits : Nat → Input → Except Fault (List Char × Input)
  | 0, input => .ok ([], input)
  | fuel + 1, input =>
    match input.next? with
    | some (.plain c) =>
      if c.isDigit then do
        let (digits, rest) ← takeDigits fuel (← advance input)
        return (c :: digits, rest)
      else .ok ([], input)
    | _ => .ok ([], input)

/-! ## Escapes and sets -/

/-- The set that a letter behind a backslash stands for. -/
def setOfLetter? : Char → Option CharSet
  | 'd' => some .digit
  | 'D' => some (.not .digit)
  | 's' => some .blank
  | 'S' => some (.not .blank)
  | 'w' => some .word
  | 'W' => some (.not .word)
  | _ => none

/-- The character that a letter behind a backslash stands for. -/
def charOfLetter? : Char → Option Char
  | 'a' => some (Char.ofNat 0x07)
  | 'f' => some (Char.ofNat 0x0C)
  | 'n' => some '\n'
  | 'r' => some '\r'
  | 't' => some '\t'
  | 'v' => some (Char.ofNat 0x0B)
  | '0' => some (Char.ofNat 0)
  | _ => none

/-- The character behind a backslash, when no letter of a set is. -/
def escapedChar (c : Char) (position : Nat) : Except Fault Char :=
  match charOfLetter? c with
  | some d => .ok d
  | none => if c.isAlphanum then .error ⟨.badEscape c, position⟩ else .ok c

/-- A token outside brackets that stands for itself. -/
def atomOfEscape (c : Char) (position : Nat) : Except Fault Pattern :=
  match c with
  | 'A' => .ok .start
  | 'Z' => .ok .finish
  | 'b' => .ok (.boundary true)
  | 'B' => .ok (.boundary false)
  | c =>
    match setOfLetter? c with
    | some set => .ok (.atom set)
    | none => do return .atom (.one (← escapedChar c position))

/-- A member of a set in brackets: a character or a set. -/
def setMember (token : Token) (position : Nat) : Except Fault (CharSet × Option Char) :=
  match token with
  | .plain c => .ok (.one c, some c)
  | .dangling => .error ⟨.danglingBackslash, position⟩
  | .escaped 'b' => .ok (.one (Char.ofNat 0x08), some (Char.ofNat 0x08))
  | .escaped c =>
    match setOfLetter? c with
    | some set => .ok (set, none)
    | none => do
      let d ← escapedChar c position
      return (.one d, some d)

/-- Takes the members of a set, and the closing bracket; `first` tells whether none has been taken
yet, since a closing bracket in front is a member. -/
def takeSet (start : Nat) : Nat → Bool → CharSet → Input → Except Fault (CharSet × Input)
  | 0, _, _, _ => .error ⟨.unterminatedSet, start⟩
  | fuel + 1, first, set, input =>
    match input.tokens with
    | [] => .error ⟨.unterminatedSet, start⟩
    | (token, position) :: _ => do
      let rest ← advance input
      if token == .plain ']' && !first then return (set, rest)
      let (member, low?) ← setMember token position
      let (isRange, afterDash) ← accept '-' rest
      if !isRange then takeSet start fuel false (.union set member) rest
      else match afterDash.tokens with
        | [] => .error ⟨.unterminatedSet, start⟩
        | (.plain ']', _) :: _ => do
          return (.union (.union set member) (.one '-'), ← advance afterDash)
        | (token', position') :: _ => do
          let rest ← advance afterDash
          let (_, high?) ← setMember token' position'
          match low?, high? with
          | some low, some high =>
            if low ≤ high then takeSet start fuel false (.union set (.range low high)) rest
            else .error ⟨.badRange token.text token'.text, position⟩
          | _, _ => .error ⟨.badRange token.text token'.text, position⟩

/-! ## Quantifiers -/

/-- The bounds of a quantifier in braces, the opening one being taken. -/
def takeBounds (input : Input) : Except Fault (Option (Nat × Option Nat) × Input) := do
  if input.next? == some (.plain '\x7d') then return (none, input)
  let (low, afterLow) ← takeDigits (input.size + 1) input
  let (comma, afterComma) ← accept ',' afterLow
  let (high, afterHigh) ← if comma then takeDigits (input.size + 1) afterComma else pure (low, afterLow)
  let (closed, rest) ← accept '\x7d' afterHigh
  if !closed then return (none, input)
  let least := Number.natOfDigits low
  let most := if high.isEmpty then none else some (Number.natOfDigits high)
  if most.any (· < least) then throw ⟨.reversedBounds, input.position⟩
  return (some (least, most), rest)

/-- What has been read of a branch: its last item, which a quantifier may still apply to, and what
precedes it. -/
structure Branch where
  before : Pattern := .empty
  last : Pattern := .empty
  /-- Whether there is a last item, and whether it can be repeated. -/
  repeatable : Option Cause := some .nothingToRepeat

def Branch.pattern (branch : Branch) : Pattern := .seq branch.before branch.last

/-- A branch with one more item. -/
def Branch.push (branch : Branch) (item : Pattern) : Branch where
  before := branch.pattern
  last := item
  repeatable := match item with
    | .start => some .nothingToRepeat
    | .lineEnd => some .nothingToRepeat
    | .finish => some .nothingToRepeat
    | .boundary _ => some .nothingToRepeat
    | _ => none

/-- A branch whose last item is repeated. A question mark or a plus sign behind a quantifier
changes how a match is looked for and not whether there is one. -/
def Branch.quantify (branch : Branch) (position least : Nat) (most : Option Nat) (input : Input) :
    Except Fault (Branch × Input) := do
  match branch.repeatable with
  | some cause => throw ⟨cause, position⟩
  | none =>
    let (lazy, rest) ← accept '?' input
    let (_, rest) ← if lazy then pure (true, rest) else accept '+' rest
    return ({ branch with
      last := .repeat branch.last least most, repeatable := some .multipleRepeat }, rest)

/-! ## Groups and branches -/

/-- Takes a group's name up to the closing angle bracket. -/
def takeName : Nat → Nat → Input → Except Fault Input
  | 0, _, input => .ok input
  | fuel + 1, length, input =>
    match input.tokens with
    | [] =>
      if length = 0 then .error ⟨.missingName, input.position⟩
      else .error ⟨.unterminatedName, input.position - length⟩
    | (.plain '>', position) :: _ => do
      if length = 0 then throw ⟨.missingName, position⟩
      advance input
    | (token, _) :: _ => do takeName fuel (length + token.text.length) (← advance input)

/-- Takes what stands between the opening parenthesis of a group and its body. -/
def takeGroupHead (input : Input) : Except Fault Input := do
  let (extended, rest) ← accept '?' input
  if !extended then return input
  match rest.tokens with
  | [] => throw ⟨.unexpectedEnd, rest.position⟩
  | (.plain ':', _) :: _ => advance rest
  | (.plain 'P', position) :: _ =>
    let rest ← advance rest
    let (named, rest) ← accept '<' rest
    if named then takeName (rest.size + 1) 0 rest
    else match rest.next? with
      | none => throw ⟨.unexpectedEnd, rest.position⟩
      | some token => throw ⟨.unknownExtension ("P" ++ token.text), position - 1⟩
  | (token, position) :: _ => throw ⟨.unknownExtension token.text, position - 1⟩

mutual

/-- Takes alternatives, up to a closing parenthesis or the end. -/
def takeAlternatives : Nat → Input → Except Fault (Pattern × Input)
  | 0, input => .ok (.empty, input)
  | fuel + 1, input => do
    let (pattern, rest) ← takeBranch fuel {} input
    let (more, rest) ← accept '|' rest
    if more then
      let (others, rest) ← takeAlternatives fuel rest
      return (.alt pattern others, rest)
    else return (pattern, rest)

/-- Takes the items of a branch. -/
def takeBranch : Nat → Branch → Input → Except Fault (Pattern × Input)
  | 0, branch, input => .ok (branch.pattern, input)
  | fuel + 1, branch, input =>
    match input.tokens with
    | [] => .ok (branch.pattern, input)
    | (.plain '|', _) :: _ => .ok (branch.pattern, input)
    | (.plain ')', _) :: _ => .ok (branch.pattern, input)
    | (token, position) :: _ => do
      let (branch, rest) ← takeItem fuel branch token position (← advance input)
      takeBranch fuel branch rest

/-- Takes one item, or a quantifier of the last one; its first token is taken. -/
def takeItem : Nat → Branch → Token → Nat → Input → Except Fault (Branch × Input)
  | 0, branch, _, _, input => .ok (branch, input)
  | fuel + 1, branch, token, position, input =>
    match token with
    | .dangling => .error ⟨.danglingBackslash, position⟩
    | .escaped c => do return (branch.push (← atomOfEscape c position), input)
    | .plain '.' => .ok (branch.push (.atom (.not (.one '\n'))), input)
    | .plain '^' => .ok (branch.push .start, input)
    | .plain '$' => .ok (branch.push .lineEnd, input)
    | .plain '?' => branch.quantify position 0 (some 1) input
    | .plain '*' => branch.quantify position 0 none input
    | .plain '+' => branch.quantify position 1 none input
    | .plain '\x7b' => do
      match ← takeBounds input with
      | (some (least, most), rest) => branch.quantify position least most rest
      | (none, _) => return (branch.push (.atom (.one '\x7b')), input)
    | .plain '[' => do
      let (negated, rest) ← accept '^' input
      let (set, rest) ← takeSet position (input.size + 1) true .none rest
      return (branch.push (.atom (if negated then .not set else set)), rest)
    | .plain '(' => do
      let rest ← takeGroupHead input
      let (body, rest) ← takeAlternatives fuel rest
      let (closed, rest) ← accept ')' rest
      if !closed then throw ⟨.unterminatedGroup, position⟩
      return (branch.push (.seq .empty body), rest)
    | .plain c => .ok (branch.push (.atom (.one c)), input)

end

def ofText (text : List Char) : Except Fault Pattern := do
  let input : Input := ⟨tokensFrom 0 text, text.length⟩
  if input.next? == some .dangling then throw ⟨.danglingBackslash, input.position⟩
  let (pattern, rest) ← takeAlternatives (3 * text.length + 3) input
  if rest.tokens.isEmpty then return pattern else throw ⟨.unbalanced, rest.position⟩

end PhpAudit.Pattern
