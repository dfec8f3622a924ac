import PhpAudit.Number.Integer
import PhpAudit.Syntax.Walk
import PhpAudit.Text.Quoted
import PhpAudit.Text.WordChar

/-!
# Queries over trees

Questions about the nodes of a forest, of one tree, or of a stream of nodes. A forest can be walked
again and again; a stream gives its nodes to the first walk and has none left for a second. Names
that are known only when the program runs are absent, so they match no name that is asked for.
-/

namespace PhpAudit.Syntax

/-- What a query looks through. -/
inductive Subject where
  | forest (nodes : Forest)
  | stream (nodes : Forest)

namespace Subject

def tree (node : Node) : Subject := .forest [node]

/-- All nodes that a walk finds, and what is left for the next walk. -/
def visit : Subject → List Node × Subject
  | .forest nodes => (walk nodes, .forest nodes)
  | .stream nodes => (walk nodes, .stream [])

/-- The nodes that satisfy a condition, in the order of the walk. -/
def findAll (subject : Subject) (condition : Node → Bool) : List Node :=
  subject.visit.1.filter condition

/-- The first node that satisfies a condition. -/
def findFirst? (subject : Subject) (condition : Node → Bool) : Option Node :=
  subject.visit.1.find? condition

def ofKind (subject : Subject) (kind : String) : List Node :=
  subject.findAll fun node => node.kind == kind

/-- The calls of a method on a value. -/
def methodCalls (subject : Subject) (method : String) : List Node :=
  subject.findAll fun node => node.isKind .methodCall && node.name == some method

/-- The calls of a method on a type. -/
def staticCalls (subject : Subject) (type method : String) : List Node :=
  subject.findAll fun node =>
    node.isKind .staticCall && node.name == some method && node.owner == some type

def functionCalls (subject : Subject) (function : String) : List Node :=
  subject.findAll fun node => node.isKind .functionCall && node.name == some function

/-- The declarations of a kind. No other nodes can be asked for this way. -/
def declarations (subject : Subject) (kind : String) : List Node :=
  if (NodeKind.declarations.map NodeKind.text).contains kind then subject.ofKind kind else []

/-- Whether a node declares something that has members. -/
def isClassLike (node : Node) : Bool := NodeKind.classLike.any node.isKind

/-- The methods, or only those of the first declaration of the given name. -/
def methodDeclarations (subject : Subject) : Option String → List Node
  | none => subject.ofKind NodeKind.method.text
  | some owner =>
    match subject.findFirst? fun node => isClassLike node && node.name == some owner with
    | some declaration => (tree declaration).ofKind NodeKind.method.text
    | none => []

def hasConcatenation (subject : Subject) : Bool :=
  (subject.findFirst? fun node => node.isKind .concat).isSome

/-- Whether a text looks as if a variable were put into it: it has an opening brace and a dollar
sign, or a dollar sign and a character of a word. -/
def mentionsVariable : List Char → Bool
  | '\x7b' :: '$' :: _ => true
  | '$' :: c :: rest => Text.isWordChar c || mentionsVariable (c :: rest)
  | _ :: rest => mentionsVariable rest
  | [] => false

/-- Whether a node is a string literal that looks as if a variable were put into it. -/
def looksInterpolated (node : Node) : Bool := mentionsVariable (node.value.getD "").toList

/-- Whether any string is put together from values, or looks like it. Literals that only look like
it are sought in a second walk. -/
def hasInterpolation (subject : Subject) : Bool :=
  let (nodes, rest) := subject.visit
  (nodes.find? fun node => node.isKind .interpolatedString).isSome ||
    (rest.ofKind NodeKind.string.text).any looksInterpolated

/-- The names of variables, each once. -/
def variableReferences (subject : Subject) : List String :=
  ((subject.ofKind NodeKind.variable.text).filterMap Node.name).eraseDups

end Subject

/-- A node in short: its kind, its name and its lines. -/
def Node.summary (node : Node) : String :=
  let label := match node.name with
    | some name => " " ++ String.ofList (Text.Quoted.quoted name.toList)
    | none => ""
  "<SyntaxNode " ++ node.kind ++ label ++ " L" ++ Number.Integer.text node.startLine ++ "-" ++
    Number.Integer.text node.endLine ++ ">"

end PhpAudit.Syntax
