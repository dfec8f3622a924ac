import PhpAudit.Grammar.Source

/-!
# Reading a source

A `Scan` reads from a position on and either answers with the position after what it read or
refuses. `Pieces` are the trees that a stretch of source contributes to the node being built.

Comments and closed-and-reopened stretches of text may stand between any two tokens. They are
read together with the token that follows, and when a node is built those in front of its first
token are moved out before it (`Scan.wrap`), so each of them lands in the smallest construct
that has a token on both sides of it.
-/

namespace PhpAudit.Grammar

/-- A reader of sources. -/
def Scan (α : Type) : Type := Source → Nat → Option (α × Nat)

/-- The trees that a stretch of source contributes. -/
abbrev Pieces : Type := List Tree

namespace Scan

/-- Reads nothing and answers. -/
def pure (a : α) : Scan α := fun _ i => some (a, i)

/-- Reads one after the other. -/
def bind (first : Scan α) (next : α → Scan β) : Scan β := fun source i =>
  match first source i with
  | some (a, j) => next a source j
  | none => none

def refuse : Scan α := fun _ _ => none

/-- Reads the second where the first refuses. -/
def orElse (first : Scan α) (second : Unit → Scan α) : Scan α := fun source i =>
  match first source i with
  | some answer => some answer
  | none => second () source i

instance : Monad Scan where
  pure := Scan.pure
  bind := Scan.bind

instance : Alternative Scan where
  failure := Scan.refuse
  orElse := Scan.orElse

def position : Scan Nat := fun _ i => some (i, i)

def source : Scan Source := fun source i => some (source, i)

/-- Goes on from another position. -/
def moveTo (j : Nat) : Scan Unit := fun _ _ => some ((), j)

/-- What the reader answers here, without moving. -/
def lookahead (scan : Scan α) : Scan (Option α) := fun source i =>
  some ((scan source i).map Prod.fst, i)

/-- Goes on only where the condition holds. -/
def require (condition : Bool) : Scan Unit := if condition then Scan.pure () else refuse

/-- Nothing where the reader refuses. -/
def optional (scan : Scan Pieces) : Scan Pieces := scan <|> Scan.pure []

/-- Reads as often as possible, at most `fuel` times, stopping also when nothing is consumed. -/
def manyFrom (scan : Scan Pieces) : Nat → Pieces → Scan Pieces
  | 0, read => Scan.pure read.reverse
  | fuel + 1, read => fun source i =>
    match scan source i with
    | some (pieces, j) =>
      if j ≤ i then some (read.reverse, i)
      else manyFrom scan fuel (pieces.reverse ++ read) source j
    | none => some (read.reverse, i)

/-- Reads as often as possible. -/
def many (scan : Scan Pieces) : Scan Pieces := fun source i =>
  manyFrom scan (source.size + 1 - i) [] source i

/-- Reads once and then as often as possible. -/
def many1 (scan : Scan Pieces) : Scan Pieces := do
  let head ← scan
  let tail ← many scan
  return head ++ tail

/-- Comments and interposed text, which may stand between any two tokens. -/
def isExtra (tree : Tree) : Bool := tree.type == "comment" || tree.type == "text_interpolation"

/-- Names the field that the pieces of a reader fill; what stands between tokens fills none. -/
def inField (name : String) (scan : Scan Pieces) : Scan Pieces := do
  let pieces ← scan
  return pieces.map fun piece => if isExtra piece then piece else piece.inField name

/-- Builds a node over the pieces, ending at the current position. What precedes its first token
stays outside, in front of it. -/
def wrap (type : String) (pieces : Pieces) : Scan Pieces := fun source i =>
  let (outside, inside) := pieces.span isExtra
  let start := match inside with
    | piece :: _ => (piece.span.startByte, piece.span.startPoint)
    | [] => source.place i
  let (endByte, endPoint) := source.place i
  some (outside ++ [.node type true none ⟨start.1, endByte, start.2, endPoint⟩ inside], i)

/-- Builds a node over what a reader reads. -/
def node (type : String) (scan : Scan Pieces) : Scan Pieces := do
  wrap type (← scan)

end Scan

end PhpAudit.Grammar
