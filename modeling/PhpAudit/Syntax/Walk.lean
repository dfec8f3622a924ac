import PhpAudit.Syntax.Node

/-!
# Walking trees

`walk` visits every node of a forest with an explicit stack, so that long chains do not exhaust
the call stack; `listing` is the pre-order listing by recursion that it amounts to.
-/

namespace PhpAudit.Syntax

namespace Node

mutual

/-- The number of nodes of a tree. -/
def size : Node → Nat
  | .mk _ _ _ children => 1 + sizeAll children

/-- The number of nodes of a forest. -/
def sizeAll : List Node → Nat
  | [] => 0
  | node :: rest => node.size + sizeAll rest

end

mutual

/-- A node and all nodes inside it, in pre-order. -/
def listing : Node → List Node
  | .mk kind extent payload children => .mk kind extent payload children :: listingAll children

/-- The listings of some nodes, one after the other. -/
def listingAll : List Node → List Node
  | [] => []
  | node :: rest => node.listing ++ listingAll rest

end

/-- Visits the node on top of the stack and puts its children in its place. -/
def visit : Nat → List Node → List Node
  | 0, _ => []
  | _ + 1, [] => []
  | fuel + 1, node :: rest => node :: visit fuel (node.children ++ rest)

end Node

/-- Every node of a forest, each before those inside it and those after it. -/
def walk (forest : Forest) : List Node := Node.visit (Node.sizeAll forest) forest

end PhpAudit.Syntax
