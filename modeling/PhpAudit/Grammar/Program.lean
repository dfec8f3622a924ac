import PhpAudit.Grammar.Statement

/-!
# Programs

A source is text with programs between tags. `parse?` answers with the tree of a source that is
well formed as a whole, and with nothing for any other.
-/

namespace PhpAudit.Grammar

/-- Each construct read by its rule, given readers for the constructs inside it. -/
def grammar (rules : Rules) : Rules
  | .expression level closes pattern => Scan.expression rules level closes pattern
  | .unary closes => Scan.unary rules closes
  | .primary closes => Scan.primary rules closes
  | .simpleVariable => Scan.simpleVariable rules
  | .statement => Scan.statement rules

/-- The readers of all constructs up to a depth of nesting. -/
def rulesAt : Nat → Rules
  | 0, _ => Scan.refuse
  | depth + 1, symbol => grammar (rulesAt depth) symbol

namespace Scan

/-- Statements and what stands between and behind them, up to the end of the source. -/
def statementsToEnd (rules : Rules) : Scan Pieces := do
  let statements ← many (rules .statement)
  let extras ← afterGap fun source i => if source.code i == endOfSource then some ([], i) else none
  return statements ++ extras

/-- The open tag and everything behind it. -/
def tagged? (rules : Rules) : Scan Pieces := fun source i =>
  let j := source.skipWhile Code.isAsciiBlank i
  match source.openTagEnd? j with
  | some k =>
    match statementsToEnd rules source k with
    | some (pieces, l) => some (source.leaf "php_tag" true j k :: pieces, l)
    | none => none
  | none => if source.code j == endOfSource then some ([], j) else none

/-- A whole source. -/
def program (rules : Rules) : Scan Pieces := fun source i =>
  let i := if source.code i == 0xFEFF then i + 1 else i
  let (text, j) := match source.text? i with
    | some (start, j) => ([source.leaf "text" true start j], j)
    | none => ([], i)
  match tagged? rules source j with
  | some (pieces, k) => some (text ++ pieces, k)
  | none => none

end Scan

/-- The tree of a source, if it is well formed. No construct can nest deeper than the source is
long times the number of rules that may stand between two tokens. -/
def parse? (bytes : List UInt8) : Option Tree :=
  let source := Source.ofBytes bytes
  let depth := 16 * (source.size + 4)
  (Scan.program (rulesAt depth) source 0).map fun (pieces, i) =>
    .node "program" true none (source.span 0 i) pieces

end PhpAudit.Grammar
