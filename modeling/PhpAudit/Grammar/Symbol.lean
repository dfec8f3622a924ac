import PhpAudit.Grammar.Token

/-!
# The constructs that contain one another

The grammar is given as a function from readers of its constructs to readers of its constructs:
each rule names the constructs that occur in it and is handed a reader for each of them. Tying
that function to itself, once per level of nesting, is the work of `PhpAudit.Grammar.Program`.
-/

namespace PhpAudit.Grammar

/-- A construct that may occur inside itself. With `closes`, a close tag may end the statement
right behind it. With `pattern`, a list of targets such as `[, $a]`, which is no expression, is
read as well. -/
inductive Symbol where
  /-- An expression whose outermost operator binds at least as tightly as the level. -/
  | expression (level : Nat) (closes pattern : Bool)
  /-- An expression that is no operand of a later operator: the value of a cast. -/
  | unary (closes : Bool)
  /-- A value with the calls, members and subscripts that follow it. -/
  | primary (closes : Bool)
  /-- A variable without anything that follows it. -/
  | simpleVariable
  /-- A statement. -/
  | statement
deriving DecidableEq, Repr

/-- A reader for every construct. -/
abbrev Rules : Type := Symbol → Scan Pieces

namespace Rules

/-- Any expression in a place where no close tag can end the statement. -/
def anyExpression (rules : Rules) : Scan Pieces := rules (.expression 0 false false)

/-- Any expression that stands last in a statement. -/
def lastExpression (rules : Rules) : Scan Pieces := rules (.expression 0 true false)

end Rules

end PhpAudit.Grammar
