import PhpAudit.Grammar.Symbol

/-!
# Names and types

A qualified name keeps its last part apart from the namespace in front of it. A type is a single
name, a nullable one, a union, an intersection, or a union of intersections; behind a type an `&`
belongs to it only when another type follows.
-/

namespace PhpAudit.Grammar.Scan

/-- The first piece that is no comment or interposed text, where a node over the pieces starts. -/
def firstToken? (pieces : Pieces) : Option Tree := pieces.find? fun piece => !isExtra piece

/-- Builds a node that ends with its last piece. -/
def group (type : String) (field : Option String) (pieces : Pieces) : Pieces :=
  let (outside, inside) := pieces.span isExtra
  match inside.head?, inside.getLast? with
  | some a, some b =>
    outside ++ [.node type true field
      ⟨a.span.startByte, b.span.endByte, a.span.startPoint, b.span.endPoint⟩ inside]
  | _, _ => pieces

/-- The pieces of a qualified name so far: what stands before the last separator, that
separator, and the part behind it. -/
structure Parts where
  before : Pieces
  separator : Pieces
  last : Pieces

/-- Reads further parts of a qualified name, at most `fuel` of them. -/
def partsFrom (closes : Bool) : Nat → Parts → Scan Parts
  | 0, parts => Scan.pure parts
  | fuel + 1, parts => do
    if ← nextIs closes "\\" then
      match ← lookahead (do let m ← mark "\\"; let n ← name; return m ++ n) with
      | some _ =>
        let separator ← mark "\\"
        let last ← name
        partsFrom closes fuel ⟨parts.before ++ parts.separator ++ parts.last, separator, last⟩
      | none => return parts
    else return parts

/-- Reads all parts of a qualified name from its first word on. -/
def parts (closes : Bool) : Scan Parts := do
  let head ← name
  let source ← source
  partsFrom closes source.size ⟨[], [], head⟩

/-- Names the field of every piece that is a token. -/
def tagged (field : String) (pieces : Pieces) : Pieces :=
  pieces.map fun piece => if isExtra piece then piece else piece.inField field

/-- The node for a qualified name behind the given opening. -/
def qualified (type : String) (opening : Pieces) (parts : Parts) : Pieces :=
  let space := if parts.before.isEmpty then [] else
    group "namespace_name" (some "prefix") parts.before
  group type none (opening ++ space ++ tagged "prefix" parts.separator ++ parts.last)

/-- A name, qualified or not. -/
def anyName (closes : Bool) : Scan Pieces := do
  match ← ahead false with
  | .mark "\\" =>
    let opening ← inField "prefix" (mark "\\")
    return qualified "qualified_name" opening (← parts closes)
  | .word "namespace" =>
    match ← lookahead (do let k ← keyword "namespace"; let m ← mark "\\"; return k ++ m) with
    | some _ =>
      let word ← inField "prefix" (keyword "namespace")
      let opening ← inField "prefix" (mark "\\")
      return qualified "relative_name" (word ++ opening) (← parts closes)
    | none => name
  | _ =>
    let parts ← parts closes
    if parts.separator.isEmpty then return parts.last else return qualified "qualified_name" [] parts

def namespaceName : Scan Pieces := do
  let parts ← parts true
  return group "namespace_name" none (parts.before ++ parts.separator ++ parts.last)

/-- The words that name a built-in type. -/
def builtInTypes : List String :=
  ["array", "callable", "iterable", "bool", "float", "int", "string", "void", "mixed", "false",
    "null", "true"]

/-- A built-in type, or a name as a type. -/
def plainType : Scan Pieces := do
  match ← ahead false with
  | .word word =>
    if builtInTypes.contains word then
      let type ← wordAs "primitive_type"
      if (← ahead false) == .mark "\\" then refuse else return type
    else node "named_type" (anyName false)
  | .mark "\\" => node "named_type" (anyName false)
  | _ => refuse

/-- A type that may be nullable but is no union or intersection. -/
def singleType : Scan Pieces := do
  if (← ahead false) == .mark "?" then
    node "optional_type" do
      let mark ← mark "?"
      let type ← plainType
      return mark ++ type
  else plainType

/-- An `&` that another type follows. -/
def intersectionMark : Scan Pieces := do
  let mark ← mark "&"
  match ← ahead false with
  | .word _ | .mark "\\" | .mark "?" => return mark
  | _ => refuse

/-- The rest of an intersection behind its first type. -/
def intersectionRest : Scan Pieces := many1 do
  let mark ← intersectionMark
  let type ← singleType
  return mark ++ type

def parenthesizedIntersection : Scan Pieces := do
  let opening ← mark "("
  let head ← singleType
  let rest ← optional intersectionRest
  let closing ← mark ")"
  return opening ++ group "intersection_type" none (head ++ rest) ++ closing

def unionMember : Scan Pieces := do
  if (← ahead false) == .mark "(" then parenthesizedIntersection else singleType

/-- The rest of a union behind its first member. -/
def unionRest : Scan Pieces := many do
  let mark ← mark "|"
  let member ← unionMember
  return mark ++ member

def anyType : Scan Pieces := do
  if (← ahead false) == .mark "(" then
    let head ← parenthesizedIntersection
    let rest ← unionRest
    return group "disjunctive_normal_form_type" none (head ++ rest)
  let head ← singleType
  match ← ahead false with
  | .mark "|" =>
    let rest ← unionRest
    let grouped := rest.any fun piece => piece.type == "("
    if rest.isEmpty then return head
    return group (if grouped then "disjunctive_normal_form_type" else "union_type") none
      (head ++ rest)
  | .mark "&" =>
    match ← lookahead intersectionRest with
    | some _ => return group "intersection_type" none (head ++ (← intersectionRest))
    | none => return head
  | _ => return head

/-- The type that a function returns, with its colon. -/
def returnType : Scan Pieces := do
  let colon ← mark ":"
  let type ←
    if (← ahead false) == .word "never" then wordAs "bottom_type" else anyType
  return colon ++ tagged "return_type" type

/-- The type that a function returns, if one is given. -/
def optionalReturnType : Scan Pieces := whenMark ":" returnType

end PhpAudit.Grammar.Scan
