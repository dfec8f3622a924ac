import PhpAudit.Text.Blank
import PhpAudit.Text.DecimalDigit
import PhpAudit.Text.WordChar

/-!
# Patterns

Regular expressions and where they match: `Pattern.ends` computes the positions where a match that
starts at a given one may end. Whether a text contains a match does not depend on how greedy a
repetition is, so patterns do not record it.
-/

namespace PhpAudit

/-- A set of characters. -/
inductive CharSet where
  | one (c : Char)
  | range (low high : Char)
  | digit
  | blank
  | word
  | not (set : CharSet)
  | union (left right : CharSet)
  | none
deriving Repr, Inhabited

def CharSet.contains (c : Char) : CharSet → Bool
  | .one d => c == d
  | .range low high => low ≤ c && c ≤ high
  | .digit => Text.isDecimalDigit c
  | .blank => Text.isBlank c
  | .word => Text.isWordChar c
  | .not set => !set.contains c
  | .union left right => left.contains c || right.contains c
  | .none => false

/-- A regular expression. -/
inductive Pattern where
  /-- Matches between any two characters. -/
  | empty
  /-- Matches one character of a set. -/
  | atom (set : CharSet)
  | seq (first second : Pattern)
  | alt (left right : Pattern)
  /-- Matches the body so often that the count lies between the bounds. -/
  | repeat (body : Pattern) (least : Nat) (most : Option Nat)
  /-- Matches at the start of the text. -/
  | start
  /-- Matches at the end of the text, and in front of a line feed that ends it. -/
  | lineEnd
  /-- Matches at the end of the text. -/
  | finish
  /-- Matches where a word starts or ends, or everywhere else. -/
  | boundary (wanted : Bool)
deriving Repr, Inhabited

namespace Pattern

/-- Whether the text has a word character at a position. -/
def wordAt (text : Array Char) (i : Nat) : Bool :=
  match text[i]? with
  | some c => Text.isWordChar c
  | none => false

/-- Whether a word starts or ends at a position. -/
def atBoundary (text : Array Char) (i : Nat) : Bool :=
  (0 < i && wordAt text (i - 1)) != wordAt text i

/-- Whether a position is the end of the text, or in front of the line feed that ends it. -/
def atLineEnd (text : Array Char) (i : Nat) : Bool :=
  i == text.size || (i + 1 == text.size && text[i]? == some '\n')

/-- The positions that can be reached from some of them in so many steps. -/
def after (step : Nat → List Nat) : Nat → List Nat → List Nat
  | 0, here => here
  | n + 1, here => after step n (here.flatMap step).eraseDups

/-- The positions that can be reached from some of them in any number of steps up to a bound,
together with those already seen. A round without news ends the search. -/
def reach (step : Nat → List Nat) : Nat → List Nat → List Nat → List Nat
  | 0, _, seen => seen
  | n + 1, here, seen =>
    let fresh := (here.flatMap step).eraseDups.filter fun i => !seen.contains i
    if fresh.isEmpty then seen else reach step n fresh (seen ++ fresh)

/-- The positions where a match that starts at the given one may end. -/
def ends (text : Array Char) : Pattern → Nat → List Nat
  | .empty, i => [i]
  | .atom set, i =>
    match text[i]? with
    | some c => if set.contains c then [i + 1] else []
    | none => []
  | .seq p q, i => ((ends text p i).flatMap (ends text q)).eraseDups
  | .alt p q, i => (ends text p i ++ ends text q i).eraseDups
  | .repeat p least most, i =>
    let here := after (ends text p) least [i]
    match most with
    | none => reach (ends text p) (text.size + 1) here here
    | some most => reach (ends text p) (most - least) here here
  | .start, i => if i = 0 then [i] else []
  | .lineEnd, i => if atLineEnd text i then [i] else []
  | .finish, i => if i = text.size then [i] else []
  | .boundary wanted, i => if atBoundary text i == wanted then [i] else []

/-- Whether a text contains a match. -/
def occursIn (pattern : Pattern) (text : List Char) : Bool :=
  let text := text.toArray
  (List.range (text.size + 1)).any fun i => !(pattern.ends text i).isEmpty

end Pattern

end PhpAudit
