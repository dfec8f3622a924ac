import PhpAudit.Grammar.Declaration

/-!
# Expressions

An operand is a value with everything that follows it (calls, members, subscripts), possibly with
operators in front, or an assignment; operators between operands are then taken in by level. An
assignment may stand wherever a variable may, however tightly the operator in front of it binds.

A bracketed list is first read as what may become either an array or a list of targets to assign
to. Only what follows it tells the two apart; `asTargets?` makes the one into the other.
-/

namespace PhpAudit.Grammar.Scan

/-! ## What a piece may be used as -/

/-- The constructs that can be assigned to or referred to. -/
def variableTypes : List String :=
  ["variable_name", "dynamic_variable_name", "subscript_expression", "member_call_expression",
    "nullsafe_member_call_expression", "scoped_call_expression", "function_call_expression",
    "scoped_property_access_expression", "member_access_expression",
    "nullsafe_member_access_expression"]

/-- Other constructs that a member, a subscript or a scope may follow. -/
def valueTypes : List String :=
  ["parenthesized_expression", "array_creation_expression", "string", "encapsed_string",
    "heredoc", "nowdoc", "name", "qualified_name", "relative_name", "relative_scope",
    "class_constant_access_expression"]

/-- Constructs that arguments may follow. -/
def callableTypes : List String :=
  ["name", "qualified_name", "relative_name", "variable_name", "dynamic_variable_name",
    "subscript_expression", "member_call_expression", "nullsafe_member_call_expression",
    "scoped_call_expression", "function_call_expression", "parenthesized_expression",
    "array_creation_expression", "string", "encapsed_string", "heredoc", "nowdoc"]

/-- Constructs that are no operand of `instanceof`. -/
def looseTypes : List String :=
  ["conditional_expression", "match_expression", "augmented_assignment_expression",
    "assignment_expression", "reference_assignment_expression", "yield_expression",
    "error_suppression_expression", "binary_expression", "include_expression",
    "include_once_expression", "require_expression", "require_once_expression"]

/-- The construct that the pieces end in. -/
def lastType (pieces : Pieces) : String :=
  match pieces.getLast? with
  | some piece => piece.type
  | none => ""

/-- Whether an object is created with arguments or from an unnamed class. -/
def isCompleteCreation (pieces : Pieces) : Bool :=
  match pieces.getLast? with
  | some (.node "object_creation_expression" _ _ _ children) =>
    children.any fun child => child.type == "arguments" || child.type == "anonymous_class"
  | _ => false

/-- Whether the pieces can be assigned to. -/
def isVariable (pieces : Pieces) : Bool := variableTypes.contains (lastType pieces)

/-- Whether a member, a subscript or a scope may follow. -/
def isValue (pieces : Pieces) : Bool :=
  isVariable pieces || valueTypes.contains (lastType pieces) || isCompleteCreation pieces

/-- Whether arguments may follow. -/
def isCallable (pieces : Pieces) : Bool :=
  callableTypes.contains (lastType pieces) || isCompleteCreation pieces

/-- Whether a cast was applied to something that can be assigned to. -/
def isCastVariable (pieces : Pieces) : Bool :=
  match pieces.getLast? with
  | some (.node "cast_expression" _ _ _ children) => isVariable children
  | _ => false

/-! ## Lists -/

/-- Whether a bracketed list has an empty place, or holds something that is no expression. -/
def hasPlacesFrom : Bool → Pieces → Bool
  | _, [] => false
  | expecting, piece :: rest =>
    if isExtra piece then hasPlacesFrom expecting rest
    else if piece.type == "," then expecting || hasPlacesFrom true rest
    else if piece.type == "array_element_initializer" then
      piece.children.any (·.type == "list_literal") || hasPlacesFrom false rest
    else hasPlacesFrom expecting rest

mutual

/-- One element of a list of targets: a variable, a reference or a list, possibly behind a key. -/
def elementTargets? : Nat → Pieces → Option Pieces
  | 0, _ => none
  | fuel + 1, pieces =>
    match pieces with
    | [] => none
    | [last] => (targets? fuel last).map fun target => [target]
    | piece :: rest =>
      if isExtra piece || rest.any (·.type == "=>") || piece.type == "=>" then
        (elementTargets? fuel rest).map fun targets => piece :: targets
      else none

/-- A construct as something to assign to. -/
def targets? : Nat → Tree → Option Tree
  | 0, _ => none
  | fuel + 1, tree =>
    if tree.type == "by_ref" || tree.type == "list_literal" || variableTypes.contains tree.type then
      some tree
    else if tree.type == "array_creation_expression" then
      match tree.children with
      | opening :: rest =>
        if opening.type == "[" then
          (listTargets? fuel rest).map fun targets =>
            .node "list_literal" true tree.field tree.span (opening :: targets)
        else none
      | [] => none
    else none

/-- The pieces between the brackets of a list as things to assign to. -/
def listTargets? : Nat → Pieces → Option Pieces
  | 0, _ => none
  | fuel + 1, pieces =>
    match pieces with
    | [] => some []
    | piece :: rest => do
      let head ← if piece.type == "array_element_initializer" then elementTargets? fuel piece.children
        else some [piece]
      let tail ← listTargets? fuel rest
      some (head ++ tail)

end

/-- The pieces with their last construct as something to assign to. -/
def asTargets? (size : Nat) (pieces : Pieces) : Option Pieces := do
  let last ← pieces.getLast?
  let target ← targets? (2 * size + 8) last
  some (pieces.dropLast ++ [target])

def reference (rules : Rules) : Scan Pieces := node "by_ref" do
  let mark ← mark "&"
  let target ← rules (.primary false)
  require (isVariable target)
  return mark ++ target

/-- The value of an element, which may be a reference. -/
def elementValue (rules : Rules) (closes pattern : Bool) : Scan Pieces := do
  if (← ahead false) == .mark "&" then reference rules else rules (.expression 0 closes pattern)

/-- An element of an array: a value, a key with a value, or a spread value. -/
def element (rules : Rules) (closes pattern : Bool) : Scan Pieces :=
  node "array_element_initializer" do
    match ← ahead false with
    | .mark "..." => unpacking rules
    | .mark "&" => reference rules
    | _ =>
      let head ← rules (.expression 0 closes pattern)
      if ← nextIs closes "=>" then
        let arrow ← mark "=>"
        let value ← elementValue rules closes pattern
        return head ++ arrow ++ value
      else return head

/-- A bracketed list, which is a list of targets for certain if it has empty places. -/
def bracketed (rules : Rules) : Scan Pieces := do
  let opening ← mark "["
  let slot := optional (element rules false true)
  let items ← separated "," slot
  let closing ← mark "]"
  let type := if hasPlacesFrom true items then "list_literal" else "array_creation_expression"
  let all := opening ++ items ++ closing
  if type == "list_literal" then do
    let list ← wrap "array_creation_expression" all
    let source ← source
    match asTargets? source.size list with
    | some targets => return targets
    | none => refuse
  else wrap type all

/-- A list of targets behind the word `list`. -/
def targetList (rules : Rules) : Scan Pieces := do
  let word ← keyword "list"
  let opening ← mark "("
  let slot := optional (element rules false true)
  let items ← separated "," slot
  let closing ← mark ")"
  let source ← source
  match listTargets? (2 * source.size + 8) items with
  | some targets => wrap "list_literal" (word ++ opening ++ targets ++ closing)
  | none => refuse

/-- An array behind the word `array`. -/
def arrayCall (rules : Rules) : Scan Pieces := node "array_creation_expression" do
  let word ← keyword "array"
  let opening ← mark "("
  let items ← looseCommaList (element rules false false)
  let closing ← mark ")"
  return word ++ opening ++ items ++ closing

/-! ## Variables, members, calls -/

/-- A variable by itself: `$name`, `$$name` or `$` and an expression in braces. -/
def simpleVariable (rules : Rules) : Scan Pieces := do
  let sign ← mark "$"
  match ← ahead false with
  | .word _ => wrap "variable_name" (sign ++ (← name))
  | .mark "$" => wrap "dynamic_variable_name" (sign ++ (← rules .simpleVariable))
  | .mark "\x7b" =>
    let opening ← mark "\x7b"
    let value ← rules.anyExpression
    let closing ← mark "\x7d"
    wrap "dynamic_variable_name" (sign ++ opening ++ value ++ closing)
  | _ => refuse

def parenthesized (rules : Rules) : Scan Pieces := node "parenthesized_expression" do
  let opening ← mark "("
  let value ← rules.anyExpression
  let closing ← mark ")"
  return opening ++ value ++ closing

/-- The name of a member: a word, a variable, or an expression in braces. -/
def memberName (rules : Rules) : Scan Pieces := do
  match ← ahead false with
  | .word _ => inField "name" name
  | .mark "$" => inField "name" (rules .simpleVariable)
  | .mark "\x7b" =>
    let opening ← mark "\x7b"
    let value ← inField "name" rules.anyExpression
    let closing ← mark "\x7d"
    return opening ++ value ++ closing
  | _ => refuse

/-- Arguments as a field of the call they belong to. -/
def callArguments (rules : Rules) : Scan Pieces := inField "arguments" (arguments rules)

/-- A member of a value, called if arguments follow. -/
def memberOf (rules : Rules) (closes : Bool) (arrow callType accessType : String)
    (object : Pieces) : Scan Pieces := do
  let sign ← mark arrow
  let name ← memberName rules
  let opening := tagged "object" object ++ sign ++ name
  if ← nextIs closes "(" then wrap callType (opening ++ (← callArguments rules))
  else wrap accessType opening

/-- What follows a scope: a property, a method that is called, or a constant. -/
def scopedOf (rules : Rules) (closes : Bool) (scope : Pieces) : Scan Pieces := do
  let colons ← mark "::"
  let isProperty := (← ahead false) == .mark "$"
  let name ← memberName rules
  if ← nextIs closes "(" then
    wrap "scoped_call_expression" (tagged "scope" scope ++ colons ++ name ++ (← callArguments rules))
  else if isProperty then
    wrap "scoped_property_access_expression" (tagged "scope" scope ++ colons ++ name)
  else wrap "class_constant_access_expression" (scope ++ colons ++ name)

def subscriptOf (rules : Rules) (value : Pieces) : Scan Pieces := do
  let opening ← mark "["
  let key ← if (← ahead false) == .mark "]" then Scan.pure [] else rules.anyExpression
  let closing ← mark "]"
  wrap "subscript_expression" (value ++ opening ++ key ++ closing)

/-- A value with everything that follows it. -/
def chainFrom (rules : Rules) (closes : Bool) : Nat → Pieces → Scan Pieces
  | 0, value => Scan.pure value
  | fuel + 1, value => do
    match ← ahead closes with
    | .mark "->" =>
      if isValue value then
        chainFrom rules closes fuel
          (← memberOf rules closes "->" "member_call_expression" "member_access_expression" value)
      else return value
    | .mark "?->" =>
      if isValue value then
        chainFrom rules closes fuel
          (← memberOf rules closes "?->" "nullsafe_member_call_expression"
            "nullsafe_member_access_expression" value)
      else return value
    | .mark "::" =>
      if isValue value then chainFrom rules closes fuel (← scopedOf rules closes value)
      else return value
    | .mark "[" =>
      if isValue value then chainFrom rules closes fuel (← subscriptOf rules value)
      else return value
    | .mark "(" =>
      if isCallable value then
        let call ← wrap "function_call_expression"
          (tagged "function" value ++ (← callArguments rules))
        chainFrom rules closes fuel call
      else return value
    | .mark "++" =>
      if isVariable value then
        wrap "update_expression"
          (tagged "argument" value ++ (← inField "operator" (mark "++")))
      else return value
    | .mark "--" =>
      if isVariable value then
        wrap "update_expression"
          (tagged "argument" value ++ (← inField "operator" (mark "--")))
      else return value
    | _ => return value

/-- A value with everything that follows it. -/
def chain (rules : Rules) (closes : Bool) (value : Pieces) : Scan Pieces := fun source i =>
  chainFrom rules closes (source.size + 1 - i) value source i

/-! ## Creation of objects -/

/-- What may follow the class of a new object: members and subscripts, but no calls. -/
def classChainFrom (rules : Rules) (closes : Bool) : Nat → Pieces → Scan Pieces
  | 0, value => Scan.pure value
  | fuel + 1, value => do
    match ← ahead closes with
    | .mark "->" =>
      let sign ← mark "->"
      let name ← memberName rules
      classChainFrom rules closes fuel
        (← wrap "member_access_expression" (tagged "object" value ++ sign ++ name))
    | .mark "?->" =>
      let sign ← mark "?->"
      let name ← memberName rules
      classChainFrom rules closes fuel
        (← wrap "nullsafe_member_access_expression" (tagged "object" value ++ sign ++ name))
    | .mark "[" => classChainFrom rules closes fuel (← subscriptOf rules value)
    | .mark "::" =>
      let colons ← mark "::"
      let name ← inField "name" (rules .simpleVariable)
      classChainFrom rules closes fuel
        (← wrap "scoped_property_access_expression" (tagged "scope" value ++ colons ++ name))
    | _ => return value

/-- A class, named or computed, as `new` and `instanceof` take it. -/
def classReference (rules : Rules) (closes : Bool) : Scan Pieces := do
  match ← ahead false with
  | .mark "(" => parenthesized rules
  | .mark "$" =>
    let source ← source
    classChainFrom rules closes source.size (← rules .simpleVariable)
  | _ =>
    let isScope ← aheadIsWord scopeWords
    let name ← anyName closes
    if ← nextIs closes "::" then
      let scope := if isScope then name.map (·.retyped "relative_scope") else name
      let source ← source
      classChainFrom rules closes source.size scope
    else return name

def creation (rules : Rules) (closes : Bool) : Scan Pieces := node "object_creation_expression" do
  let word ← keyword "new"
  match ← ahead false with
  | .mark "#[" | .word "class" | .word "readonly" | .word "final" | .word "abstract" =>
    return word ++ (← anonymousClass rules)
  | _ =>
    let name ← classReference rules closes
    let arguments ← if ← nextIs closes "(" then arguments rules else Scan.pure []
    return word ++ name ++ arguments

/-! ## Closures -/

/-- The variables that a closure captures. -/
def captures : Scan Pieces := whenWord "use" <| node "anonymous_function_use_clause" do
  let word ← keyword "use"
  let opening ← mark "("
  let names ← commaList do
    if (← ahead false) == .mark "&" then
      node "by_ref" (do
        let mark ← mark "&"
        let name ← variableName
        return mark ++ name)
    else variableName
  let comma ← optional (mark ",")
  let closing ← mark ")"
  return word ++ opening ++ names ++ comma ++ closing

/-- A closure with a body of statements or of one expression, from its keyword on. -/
def closure (rules : Rules) (closes : Bool) (opening : Pieces) : Scan Pieces := do
  if (← ahead false) == .word "fn" then
    let word ← keyword "fn"
    let reference ← referenceMark
    let parameters ← inField "parameters" (parameters rules)
    let type ← optionalReturnType
    let arrow ← mark "=>"
    let body ← inField "body" (rules (.expression 0 closes false))
    wrap "arrow_function" (opening ++ word ++ reference ++ parameters ++ type ++ arrow ++ body)
  else
    let word ← keyword "function"
    let reference ← referenceMark
    let parameters ← inField "parameters" (parameters rules)
    let captures ← captures
    let type ← optionalReturnType
    let body ← inField "body" (compound rules)
    wrap "anonymous_function"
      (opening ++ word ++ reference ++ parameters ++ captures ++ type ++ body)

/-- A closure with its attributes and the word `static`. -/
def anyClosure (rules : Rules) (closes : Bool) : Scan Pieces := do
  let attributes ← attributes rules
  let fixed ← whenWord "static" (inField "static_modifier" (wordAs "static_modifier"))
  closure rules closes (attributes ++ fixed)

/-- Whether the word `static` opens a closure here. -/
def staticClosureAhead : Scan Bool := do
  match ← lookahead (do let _ ← keyword "static"; ahead false) with
  | some (.word word) => return word == "function" || word == "fn"
  | _ => return false

/-! ## Values -/

/-- The words that a cast may name. -/
def castWords : List String :=
  ["array", "binary", "bool", "boolean", "double", "float", "int", "integer", "object", "real",
    "string", "unset", "void"]

/-- A word of the language as a value without children. -/
def wordLeaf (type : String) : Scan Pieces := afterGap fun source i => do
  let j ← wordEnd? source i
  some ([source.leaf type true i j], j)

/-- A keyword and the expression behind it. -/
def keywordExpression (rules : Rules) (closes : Bool) (type word : String) : Scan Pieces :=
  node type do
    let word ← keyword word
    let value ← rules (.expression 0 closes false)
    return word ++ value

/-- One of the words that stand for a class, as a scope or, where it is called, as a name. -/
def scopeWord (closes : Bool) : Scan Pieces := do
  let name ← name
  if ← nextIs closes "::" then
    return name.map fun piece => if isExtra piece then piece else piece.retyped "relative_scope"
  else
    match ← ahead closes with
    | .mark "(" | .mark "->" | .mark "[" | .mark "?->" => return name
    | _ => refuse

/-- Words that open a construct of their own or end one, and so are no names where a value is
expected. -/
def valueKeywords : List String :=
  ["list", "match", "yield", "include", "include_once", "require", "require_once", "clone"]

/-- A value that begins with a word. -/
def wordValue (rules : Rules) (closes : Bool) (word : String) : Scan Pieces := do
  match word with
  | "true" | "false" => wordLeaf "boolean"
  | "null" => wordLeaf "null"
  | "array" => arrayCall rules
  | "new" => creation rules closes
  | "print" => keywordExpression rules closes "print_intrinsic" "print"
  | "throw" => keywordExpression rules closes "throw_expression" "throw"
  | "function" | "fn" => anyClosure rules closes
  | "self" | "parent" => scopeWord closes
  | "static" => if ← staticClosureAhead then anyClosure rules closes else scopeWord closes
  | _ => if valueKeywords.contains word then refuse else anyName closes

/-- A string with the letter `b` in front of its opening quote. -/
def prefixedString (rules : Rules) : Scan Pieces := singleQuoted <|> doubleQuoted rules

def value (rules : Rules) (closes : Bool) : Scan Pieces := do
  match ← ahead false with
  | .mark "$" => simpleVariable rules
  | .mark "(" => parenthesized rules
  | .mark "[" => bracketed rules
  | .mark "\x27" => singleQuoted
  | .mark "\x22" => doubleQuoted rules
  | .mark "\x60" => shellCommand rules
  | .mark "<<<" => heredoc rules
  | .mark "\\" => anyName closes
  | .mark "#[" => anyClosure rules closes
  | .digit => number
  | .mark "." => number
  | .word "b" => prefixedString rules <|> anyName closes
  | .word word => wordValue rules closes word
  | _ => refuse

/-- A variable that is counted up or down, with the operator in front. -/
def countedVariable (rules : Rules) (closes : Bool) (sign : String) : Scan Pieces :=
  node "update_expression" do
    let sign ← inField "operator" (mark sign)
    let target ← rules (.primary closes)
    require (isVariable target)
    return sign ++ tagged "argument" target

/-- A value with everything that follows it. -/
def primary (rules : Rules) (closes : Bool) : Scan Pieces := do
  match ← ahead false with
  | .mark "++" => countedVariable rules closes "++"
  | .mark "--" => countedVariable rules closes "--"
  | _ =>
    let value ← value rules closes
    require (lastType value != "list_literal")
    chain rules closes value

/-! ## Operators -/

/-- An operator in front of its operand. -/
def signed (rules : Rules) (closes : Bool) (sign : String) : Scan Pieces :=
  node "unary_op_expression" do
    let sign ← inField "operator" (mark sign)
    let argument ← inField "argument" (rules (.expression 20 closes false))
    return sign ++ argument

/-- The type that a cast names, in its parentheses. -/
def castOpening : Scan Pieces := do
  let opening ← mark "("
  require (← aheadIsWord castWords)
  let type ← inField "type" (wordLeaf "cast_type")
  let closing ← mark ")"
  return opening ++ type ++ closing

/-- Whether parentheses open on a word that only a cast can hold there. -/
def castOnlyAhead : Scan Bool := do
  match ← lookahead (do let _ ← mark "("; ahead false) with
  | some (.word word) => return castWords.contains word && word != "array"
  | _ => return false

def castExpression (rules : Rules) (closes : Bool) : Scan Pieces := node "cast_expression" do
  let opening ← castOpening
  let value ← inField "value" (rules (.unary closes))
  return opening ++ value

/-- A copy of an object. -/
def cloned (rules : Rules) (closes : Bool) : Scan Pieces := node "clone_expression" do
  let word ← keyword "clone"
  let value ← rules (.primary closes)
  return word ++ value

/-- An expression that operators between operands cannot tear apart. -/
def unary (rules : Rules) (closes : Bool) : Scan Pieces := do
  match ← ahead false with
  | .mark "+" => signed rules closes "+"
  | .mark "-" => signed rules closes "-"
  | .mark "~" => signed rules closes "~"
  | .mark "!" => signed rules closes "!"
  | .word "clone" => cloned rules closes
  | .mark "(" =>
    castExpression rules closes <|> do
      require !(← castOnlyAhead)
      primary rules closes
  | _ => primary rules closes

/-- The operators that combine with an assignment. -/
def augmentedSigns : List String :=
  ["**=", "*=", "/=", "%=", "+=", "-=", ".=", "<<=", ">>=", "&=", "^=", "|=", "??="]

/-- The rest of an assignment if one follows, else the target itself. -/
def assignmentRest (rules : Rules) (closes : Bool) (target : Pieces) : Scan Pieces := do
  match ← ahead closes with
  | .mark "=" =>
    let sign ← mark "="
    if (← ahead false) == .mark "&" then
      let amp ← mark "&"
      let value ← inField "right" (rules (.expression 5 closes false))
      wrap "reference_assignment_expression" (tagged "left" target ++ sign ++ amp ++ value)
    else
      let value ← inField "right" (rules (.expression 5 closes false))
      wrap "assignment_expression" (tagged "left" target ++ sign ++ value)
  | .mark sign =>
    if augmentedSigns.contains sign && lastType target != "list_literal" then
      let operator ← inField "operator" (mark sign)
      let value ← inField "right" (rules (.expression 5 closes false))
      wrap "augmented_assignment_expression" (tagged "left" target ++ operator ++ value)
    else return target
  | _ => return target

/-- A bracketed list as an operand: an array, or the targets of an assignment. -/
def listOperand (rules : Rules) (closes pattern : Bool) : Scan Pieces := do
  let list ← bracketed rules
  if ← nextIs closes "=" then
    let source ← source
    match asTargets? source.size list with
    | some targets => assignmentRest rules closes targets
    | none => refuse
  else if lastType list == "list_literal" then
    require pattern
    return list
  else
    let value ← chain rules closes list
    if isVariable value then assignmentRest rules closes value else return value

/-- What is yielded, if anything is. -/
def yielded (rules : Rules) (closes : Bool) : Scan Pieces := do
  if closes && (← ahead true) == .nothing then return []
  else optional (element rules closes false)

/-- A `yield` with or without a value. -/
def yieldExpression (rules : Rules) (closes : Bool) : Scan Pieces := node "yield_expression" do
  let word ← keyword "yield"
  if ← aheadIsWord ["from"] then
    let from_ ← keyword "from"
    let value ← rules (.expression 0 closes false)
    return word ++ from_ ++ value
  else
    let value ← yielded rules closes
    return word ++ value

def matchConditions (rules : Rules) : Scan Pieces :=
  inField "conditional_expressions" <| node "match_condition_list" do
    let conditions ← commaList rules.anyExpression
    let comma ← optional (mark ",")
    return conditions ++ comma

def matchArm (rules : Rules) : Scan Pieces := do
  if ← aheadIsWord ["default"] then
    node "match_default_expression" do
      let word ← keyword "default"
      let arrow ← mark "=>"
      let value ← inField "return_expression" rules.anyExpression
      return word ++ arrow ++ value
  else
    node "match_conditional_expression" do
      let conditions ← matchConditions rules
      let arrow ← mark "=>"
      let value ← inField "return_expression" rules.anyExpression
      return conditions ++ arrow ++ value

def matchExpression (rules : Rules) : Scan Pieces := node "match_expression" do
  let word ← keyword "match"
  let condition ← inField "condition" (parenthesized rules)
  let block ← inField "body" (node "match_block" (do
    let opening ← mark "\x7b"
    let arms ← looseCommaList (matchArm rules)
    let closing ← mark "\x7d"
    return opening ++ arms ++ closing))
  return word ++ condition ++ block

/-- An operand of an operator, or an assignment. -/
def operand (rules : Rules) (closes pattern : Bool) : Scan Pieces := do
  match ← ahead false with
  | .mark "[" => listOperand rules closes pattern
  | .mark "@" => node "error_suppression_expression" (do
      let sign ← mark "@"
      let value ← rules (.expression 22 closes false)
      return sign ++ value)
  | .word "list" =>
    let list ← targetList rules
    if ← nextIs closes "=" then assignmentRest rules closes list
    else
      require pattern
      return list
  | .word "match" => matchExpression rules
  | .word "yield" => yieldExpression rules closes
  | .word "include" => keywordExpression rules closes "include_expression" "include"
  | .word "include_once" => keywordExpression rules closes "include_once_expression" "include_once"
  | .word "require" => keywordExpression rules closes "require_expression" "require"
  | .word "require_once" => keywordExpression rules closes "require_once_expression" "require_once"
  | _ =>
    let value ← unary rules closes
    if isVariable value || isCastVariable value then assignmentRest rules closes value
    else return value

/-- The level of an operator between two operands, and whether it groups to the right. -/
def binaryLevel? : Ahead → Option (Nat × Bool)
  | .word "or" => some (1, false)
  | .word "xor" => some (2, false)
  | .word "and" => some (3, false)
  | .mark "??" => some (6, true)
  | .mark "||" => some (7, false)
  | .mark "&&" => some (8, false)
  | .mark "|" => some (9, false)
  | .mark "^" => some (10, false)
  | .mark "&" => some (11, false)
  | .mark "==" | .mark "!=" | .mark "<>" | .mark "===" | .mark "!==" | .mark "<=>" => some (12, false)
  | .mark "<" | .mark ">" | .mark "<=" | .mark ">=" => some (13, false)
  | .mark "|>" => some (13, false)
  | .mark "." => some (14, false)
  | .mark "<<" | .mark ">>" => some (15, false)
  | .mark "+" | .mark "-" => some (16, false)
  | .mark "*" | .mark "/" | .mark "%" => some (17, false)
  | .mark "**" => some (18, true)
  | _ => none

/-- The operator that a token behind an operand stands for. A variable has taken its own `++` or
`--` by then, so what is left of them is an operator and the sign of the operand to come. -/
def asOperator : Ahead → Ahead
  | .mark "++" => .mark "+"
  | .mark "--" => .mark "-"
  | token => token

/-- The token of an operator between two operands. -/
def operatorToken : Ahead → Scan Pieces
  | .word word => keyword word
  | .mark text => markOpening text
  | _ => refuse

/-- A choice between two values from its question mark on. -/
def conditionalRest (rules : Rules) (closes : Bool) (condition : Pieces) : Scan Pieces := do
  let question ← mark "?"
  let body ← if (← ahead false) == .mark ":" then Scan.pure []
    else inField "body" (rules (.expression 0 false false))
  let colon ← mark ":"
  let alternative ← inField "alternative" (rules (.expression 6 closes false))
  wrap "conditional_expression"
    (tagged "condition" condition ++ question ++ body ++ colon ++ alternative)

/-- Takes in operators of at least the given level behind an operand. -/
def operatorsFrom (rules : Rules) (closes : Bool) (level : Nat) : Nat → Pieces → Scan Pieces
  | 0, left => Scan.pure left
  | fuel + 1, left => do
    let next := asOperator (← ahead closes)
    if next == .mark "?" then
      if level ≤ 5 then
        operatorsFrom rules closes level fuel (← conditionalRest rules closes left)
      else return left
    else if next == .word "instanceof" then
      if looseTypes.contains (lastType left) then return left
      else
        let operator ← inField "operator" (keyword "instanceof")
        let right ← inField "right" (classReference rules closes)
        let test ← wrap "binary_expression" (tagged "left" left ++ operator ++ right)
        operatorsFrom rules closes level fuel test
    else
      match binaryLevel? next with
      | some (own, rightward) =>
        if level ≤ own then
          let operator ← inField "operator" (operatorToken next)
          let inner := if rightward then own else own + 1
          let right ← inField "right" (rules (.expression inner closes false))
          let whole ← wrap "binary_expression" (tagged "left" left ++ operator ++ right)
          operatorsFrom rules closes level fuel whole
        else return left
      | none => return left

/-- An expression whose outermost operator has at least the given level. -/
def expression (rules : Rules) (level : Nat) (closes pattern : Bool) : Scan Pieces := do
  let left ← operand rules closes pattern
  if lastType left == "list_literal" then return left
  else fun source i => operatorsFrom rules closes level (source.size + 1 - i) left source i

end PhpAudit.Grammar.Scan
