/-!
# Syntax nodes

A source is analysed as a tree of `Node`s, all of one shape. The constructs that queries ask for
have a normalized kind; every other construct keeps the grammar's own name for it, which is why
a kind is a text and `NodeKind` only lists the normalized ones.
-/

namespace PhpAudit.Syntax

/-- The normalized kinds. -/
inductive NodeKind where
  | classType | interface | trait | enum | method | function | closure | arrowFunction
  | methodCall | nullsafeMethodCall | staticCall | functionCall | new
  | variable | string | interpolatedString | concat | binaryOp | assign
  | namespace | inlineHtml
deriving DecidableEq, Repr

namespace NodeKind

/-- All normalized kinds. -/
def all : List NodeKind :=
  [.classType, .interface, .trait, .enum, .method, .function, .closure, .arrowFunction, .methodCall,
    .nullsafeMethodCall, .staticCall, .functionCall, .new, .variable, .string, .interpolatedString,
    .concat, .binaryOp, .assign, .namespace, .inlineHtml]

/-- The text of a normalized kind. -/
def text : NodeKind → String
  | .classType => "class"
  | .interface => "interface"
  | .trait => "trait"
  | .enum => "enum"
  | .method => "method"
  | .function => "function"
  | .closure => "closure"
  | .arrowFunction => "arrow_function"
  | .methodCall => "method_call"
  | .nullsafeMethodCall => "nullsafe_method_call"
  | .staticCall => "static_call"
  | .functionCall => "function_call"
  | .new => "new"
  | .variable => "variable"
  | .string => "string"
  | .interpolatedString => "interpolated_string"
  | .concat => "concat"
  | .binaryOp => "binary_op"
  | .assign => "assign"
  | .namespace => "namespace"
  | .inlineHtml => "inline_html"

/-- The normalized kind with the given text. -/
def ofText? (text : String) : Option NodeKind := all.find? (·.text == text)

/-- The kinds of declarations that have members. -/
def classLike : List NodeKind := [.classType, .interface, .trait, .enum]

/-- The kinds of declarations that can be asked for. -/
def declarations : List NodeKind := classLike ++ [.function, .method, .closure]

end NodeKind

/-- What a node carries besides its place and its children. Each part is absent where it does
not apply to the kind, or where its value is known only when the program runs. -/
structure Payload where
  /-- The called or declared name, or a variable's name. -/
  name : Option String := none
  /-- The type that a static call names. -/
  owner : Option String := none
  /-- What a string literal holds between its delimiters, as written. -/
  value : Option String := none
  /-- The operator between two operands. -/
  operator : Option String := none
  /-- The modifiers of a declaration, in small letters. -/
  modifiers : List String := []
deriving DecidableEq, Repr, Inhabited

/-- The lines and the column that a node covers, counted from 1; columns count bytes. -/
structure Extent where
  startLine : Int
  endLine : Int
  startColumn : Int
deriving DecidableEq, Repr, Inhabited

/-- A node of a syntax tree. -/
inductive Node where
  | mk (kind : String) (extent : Extent) (payload : Payload) (children : List Node)
deriving Repr, Inhabited

/-- The top-level nodes of a source, in order. None at all also stands for a source that is
malformed. -/
abbrev Forest : Type := List Node

namespace Node

/-- The kind, normalized or the grammar's. -/
def kind : Node → String
  | .mk kind .. => kind

def extent : Node → Extent
  | .mk _ extent .. => extent

def payload : Node → Payload
  | .mk _ _ payload _ => payload

/-- The nodes directly inside, in source order. -/
def children : Node → List Node
  | .mk _ _ _ children => children

/-- The called or declared name. -/
def name (node : Node) : Option String := node.payload.name

/-- The type that a static call names. -/
def owner (node : Node) : Option String := node.payload.owner

/-- The content of a string literal. -/
def value (node : Node) : Option String := node.payload.value

def operator (node : Node) : Option String := node.payload.operator

def modifiers (node : Node) : List String := node.payload.modifiers

def startLine (node : Node) : Int := node.extent.startLine

def endLine (node : Node) : Int := node.extent.endLine

def startColumn (node : Node) : Int := node.extent.startColumn

/-- Whether the node is of a normalized kind. -/
def isKind (node : Node) (kind : NodeKind) : Bool := node.kind == kind.text

def childOfKind? (node : Node) (kind : String) : Option Node :=
  node.children.find? (·.kind == kind)

end Node

end PhpAudit.Syntax
