import PhpAudit.Grammar.Tree
import PhpAudit.Text.Utf8
import PhpAudit.Text.Lowercase
import PhpAudit.Syntax.Node

/-!
# Reading syntax nodes off a concrete tree

`readTree` keeps the named constructs below the root, without comments and tags, and puts the text
between tags in place of the construct that interposes it. Each construct becomes one node, built
from its kind, its place and the parts of it that carry a literal name, value or operator.

`read` is the structural definition. `readWithStack` builds the same node with a stack of
half-built nodes, so that no depth of nesting exhausts the call stack.
-/

namespace PhpAudit.Syntax

open PhpAudit.Grammar (Tree)

/-! ## What the grammar's names stand for -/

/-- The normalized kind of a construct, by the grammar's name for it. -/
def kindOfType? : String → Option NodeKind
  | "class_declaration" => some .classType
  | "interface_declaration" => some .interface
  | "trait_declaration" => some .trait
  | "enum_declaration" => some .enum
  | "method_declaration" => some .method
  | "function_definition" => some .function
  | "anonymous_function" => some .closure
  | "anonymous_function_creation_expression" => some .closure
  | "arrow_function" => some .arrowFunction
  | "member_call_expression" => some .methodCall
  | "nullsafe_member_call_expression" => some .nullsafeMethodCall
  | "scoped_call_expression" => some .staticCall
  | "function_call_expression" => some .functionCall
  | "object_creation_expression" => some .new
  | "variable_name" => some .variable
  | "dynamic_variable_name" => some .variable
  | "assignment_expression" => some .assign
  | "namespace_definition" => some .namespace
  | "text" => some .inlineHtml
  | _ => none

/-- The four forms of string literals. -/
def stringTypes : List String := ["string", "encapsed_string", "heredoc", "nowdoc"]

/-- The forms of string literals that may hold embedded values. -/
def interpolatingTypes : List String := ["encapsed_string", "heredoc"]

/-- The parts of a string literal that are plain text. -/
def literalPartTypes : List String :=
  ["string_content", "string_value", "escape_sequence", "heredoc_start", "heredoc_end",
    "nowdoc_body", "nowdoc_string"]

/-- The constructs that name something literally. -/
def nameTypes : List String := ["name", "qualified_name"]

/-- The constructs that name a scope literally. -/
def scopeTypes : List String := nameTypes ++ ["relative_scope"]

/-- The constructs that leave no trace. -/
def skippedTypes : List String := ["comment", "php_tag", "php_end_tag"]

/-- The declarations that carry a name and modifiers. -/
def declarationTypes : List String :=
  ["class_declaration", "interface_declaration", "trait_declaration", "enum_declaration",
    "method_declaration", "function_definition", "namespace_definition"]

/-! ## Texts -/

/-- The bytes of a source between two offsets, cut off at its end. -/
def slice (source : List UInt8) (startByte endByte : Nat) : List UInt8 :=
  (source.drop startByte).take (endByte - startByte)

/-- The text that a construct covers. -/
def textOf (source : List UInt8) (tree : Tree) : List Char :=
  Text.Utf8.decode (slice source tree.span.startByte tree.span.endByte)

/-- The text that a construct covers, as a string. -/
def stringOf (source : List UInt8) (tree : Tree) : String := String.ofList (textOf source tree)

/-- A name without the backslashes in front of it. -/
def withoutLeadingBackslashes (text : List Char) : List Char := text.dropWhile (· == '\\')

/-- The name that a construct spells out, if it is one of the given constructs. -/
def literalName? (source : List UInt8) (types : List String) (tree : Tree) : Option String :=
  if types.contains tree.type then
    some (String.ofList (withoutLeadingBackslashes (textOf source tree)))
  else none

/-- The name of a variable that is spelled out: the first name inside, else what follows the
dollar sign. -/
def variableName? (source : List UInt8) (tree : Tree) : Option String :=
  match tree.namedChildren.find? (·.type == "name") with
  | some name => some (stringOf source name)
  | none =>
    match textOf source tree with
    | '$' :: c :: rest => some (String.ofList (c :: rest))
    | _ => none

/-- A literal without the letter in front of its opening quote, if it has one. -/
def withoutByteMark : List Char → List Char
  | c :: rest => if c == 'b' || c == 'B' then rest else c :: rest
  | [] => []

/-- A quoted text without its first and its last character. -/
def withoutEnds (text : List Char) : List Char :=
  if text.length < 2 then [] else (text.drop 1).dropLast

def quotedContent (literal : List Char) : List Char := withoutEnds (withoutByteMark literal)

/-- The constructs that hold the lines of a literal. -/
def bodyTypes : List String := ["heredoc_body", "nowdoc_body"]

/-- What a string literal holds between its delimiters, as written. -/
def literalValue (source : List UInt8) (tree : Tree) : String :=
  if tree.type == "heredoc" || tree.type == "nowdoc" then
    match tree.namedChildren.find? (fun child => bodyTypes.contains child.type) with
    | some body => stringOf source body
    | none => ""
  else String.ofList (quotedContent (textOf source tree))

mutual

/-- Whether a literal holds an embedded value. The lines of a heredoc are looked into; any other
construct inside that is not plain text counts as one. -/
def hasEmbedded : Tree → Bool
  | .node _ _ _ _ children => anyEmbedded children

/-- Whether one of the constructs is an embedded value or holds one. -/
def anyEmbedded : List Tree → Bool
  | [] => false
  | .node type named field span children :: rest =>
    (named &&
      (if type == "heredoc_body" then hasEmbedded (.node type named field span children)
       else !literalPartTypes.contains type)) || anyEmbedded rest

end

/-! ## Nodes -/

def isInterpolated (tree : Tree) : Bool :=
  interpolatingTypes.contains tree.type && hasEmbedded tree

/-- The operator of an operation between two operands: the token itself. -/
def operatorOf? (tree : Tree) : Option String := (tree.childInField? "operator").map Tree.type

def kindOf (tree : Tree) : String :=
  if stringTypes.contains tree.type then
    if isInterpolated tree then NodeKind.interpolatedString.text else NodeKind.string.text
  else if tree.type == "binary_expression" then
    if operatorOf? tree == some "." then NodeKind.concat.text else NodeKind.binaryOp.text
  else match kindOfType? tree.type with
    | some kind => kind.text
    | none => tree.type

/-- The name in a field of a construct, if one of the given constructs spells it out. -/
def nameInField? (source : List UInt8) (tree : Tree) (field : String) (types : List String) :
    Option String :=
  (tree.childInField? field).bind (literalName? source types)

/-- The name that a construct carries. -/
def nameOf? (source : List UInt8) (tree : Tree) : Option String :=
  if tree.type == "member_call_expression" || tree.type == "nullsafe_member_call_expression" ||
      tree.type == "scoped_call_expression" then nameInField? source tree "name" ["name"]
  else if tree.type == "function_call_expression" then
    nameInField? source tree "function" nameTypes
  else if tree.type == "object_creation_expression" then
    (tree.namedChildren.find? fun child => nameTypes.contains child.type).bind
      (literalName? source nameTypes)
  else if tree.type == "variable_name" then variableName? source tree
  else if declarationTypes.contains tree.type then
    (tree.childInField? "name").map (stringOf source)
  else none

/-- The type that a construct names as its scope. -/
def ownerOf? (source : List UInt8) (tree : Tree) : Option String :=
  if tree.type == "scoped_call_expression" then nameInField? source tree "scope" scopeTypes
  else none

def isModifier (tree : Tree) : Bool := tree.type.endsWith "_modifier"

/-- The modifiers of a construct, in small letters. -/
def modifiersOf (source : List UInt8) (tree : Tree) : List String :=
  if declarationTypes.contains tree.type then
    (tree.children.filter isModifier).map fun child => Text.lower (stringOf source child)
  else []

/-- What a construct carries. -/
def payloadOf (source : List UInt8) (tree : Tree) : Payload where
  name := nameOf? source tree
  owner := ownerOf? source tree
  value := if stringTypes.contains tree.type then some (literalValue source tree) else none
  operator := if tree.type == "binary_expression" then operatorOf? tree else none
  modifiers := modifiersOf source tree

/-- The place of a construct. -/
def extentOf (tree : Tree) : Extent where
  startLine := tree.span.startPoint.row + 1
  endLine := tree.span.endPoint.row + 1
  startColumn := tree.span.startPoint.column + 1

/-- The node of a construct over given nodes for what is inside. -/
def nodeOf (source : List UInt8) (tree : Tree) (children : List Node) : Node :=
  .mk (kindOf tree) (extentOf tree) (payloadOf source tree) children

/-- Whether a construct interposes text between statements. -/
def isInterposed (tree : Tree) : Bool := tree.type == "text_interpolation"

/-- The constructs that a child contributes to its parent: none if it leaves no trace, the texts
inside if it interposes text, itself otherwise. -/
def retained (child : Tree) : List Tree :=
  if skippedTypes.contains child.type then []
  else if isInterposed child then child.namedChildren.filter (·.type == "text")
  else [child]

/-- The constructs directly inside a construct, in source order. -/
def partsOf (tree : Tree) : List Tree := tree.namedChildren.flatMap retained

/-! ## The structural reading -/

mutual

/-- The node of a construct, with the nodes of everything inside. -/
def read (source : List UInt8) : Tree → Node
  | .node type named field span children =>
    nodeOf source (.node type named field span children) (readParts source children)

/-- The nodes that the children of a construct contribute. -/
def readParts (source : List UInt8) : List Tree → List Node
  | [] => []
  | .node type named field span children :: rest =>
    (if !named || skippedTypes.contains type then []
     else if type == "text_interpolation" then readTexts source children
     else [read source (.node type named field span children)]) ++ readParts source rest

/-- The nodes of the texts among some constructs. -/
def readTexts (source : List UInt8) : List Tree → List Node
  | [] => []
  | .node type named field span children :: rest =>
    (if named && type == "text" then [read source (.node type named field span children)] else [])
      ++ readTexts source rest

end

/-! ## The reading with a stack -/

/-- A construct whose node is being built: its parts that are still to be read, and the nodes of
those that have been, newest first. -/
structure Frame where
  tree : Tree
  pending : List Tree
  built : List Node

/-- A construct of which nothing has been read yet. -/
def Frame.open (tree : Tree) : Frame := ⟨tree, partsOf tree, []⟩

/-- Reads the construct of the first frame and hands its node down the stack. -/
def readFrames (source : List UInt8) : Nat → Frame → List Frame → Option Node
  | 0, _, _ => none
  | fuel + 1, frame, below =>
    match frame.pending with
    | part :: rest => readFrames source fuel (.open part) (⟨frame.tree, rest, frame.built⟩ :: below)
    | [] =>
      let node := nodeOf source frame.tree frame.built.reverse
      match below with
      | [] => some node
      | parent :: below =>
        readFrames source fuel ⟨parent.tree, parent.pending, node :: parent.built⟩ below

mutual

/-- The number of constructs and tokens in a tree. -/
def size : Tree → Nat
  | .node _ _ _ _ children => 1 + sizeAll children

/-- The number of constructs and tokens in some trees. -/
def sizeAll : List Tree → Nat
  | [] => 0
  | tree :: rest => size tree + sizeAll rest

end

/-- The node of a construct, built with a stack: each construct is entered once and left once. -/
def readWithStack (source : List UInt8) (tree : Tree) : Option Node :=
  readFrames source (2 * size tree) (.open tree) []

/-! ## Whole sources -/

/-- The top-level nodes of a concrete tree: those of what is directly below its root. -/
def forestOf (source : List UInt8) (root : Tree) : Forest :=
  (partsOf root).filterMap (readWithStack source)

end PhpAudit.Syntax
