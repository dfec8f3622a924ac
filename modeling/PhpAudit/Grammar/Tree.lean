/-!
# Concrete syntax trees

A concrete tree records everything the grammar saw: every token, named or not, with the field
it fills in its parent and the stretch of source it covers. It says nothing about what a
construct means; `PhpAudit.Syntax` reads that off it.
-/

namespace PhpAudit.Grammar

/-- A place in a source: the number of line feeds before it, and of bytes since the last one. -/
structure Point where
  row : Nat
  column : Nat
deriving DecidableEq, Repr, Inhabited

/-- A stretch of source. -/
structure Span where
  startByte : Nat
  endByte : Nat
  startPoint : Point
  endPoint : Point
deriving DecidableEq, Repr, Inhabited

/-- A concrete syntax tree. `named` tells constructs from bare tokens such as `(`. -/
inductive Tree where
  | node (type : String) (named : Bool) (field : Option String) (span : Span)
      (children : List Tree)
deriving Repr, Inhabited

namespace Tree

/-- The grammar's name of the construct or token. -/
def type : Tree → String
  | .node type .. => type

/-- Whether the node is a construct rather than a bare token. -/
def named : Tree → Bool
  | .node _ named .. => named

/-- The field that the node fills in its parent. -/
def field : Tree → Option String
  | .node _ _ field .. => field

/-- The source that the node covers. -/
def span : Tree → Span
  | .node _ _ _ span _ => span

/-- All children, in source order. -/
def children : Tree → List Tree
  | .node _ _ _ _ children => children

/-- The children that are constructs. -/
def namedChildren (tree : Tree) : List Tree := tree.children.filter named

/-- The first child that fills the given field. -/
def childInField? (tree : Tree) (name : String) : Option Tree :=
  tree.children.find? (fun child => child.field == some name)

/-- The same tree in another field of its parent. -/
def inField (name : String) : Tree → Tree
  | .node type named _ span children => .node type named (some name) span children

/-- The same tree under another name. -/
def retyped (type : String) : Tree → Tree
  | .node _ named field span children => .node type named field span children

end Tree

end PhpAudit.Grammar
