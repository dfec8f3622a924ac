import PhpAudit.Grammar.Naming
import PhpAudit.Grammar.Literal

/-!
# Arguments, parameters and the members of types

Everything that declares something: attributes, parameters, functions, the members of classes,
interfaces, traits and enums, and those types themselves.
-/

namespace PhpAudit.Grammar.Scan

/-- Goes on only when the next token is one of the given words, in any case. -/
def aheadIsWord (words : List String) : Scan Bool := do
  match ← ahead false with
  | .word word => return words.contains word
  | _ => return false

/-- Statements in braces. -/
def compound (rules : Rules) : Scan Pieces := node "compound_statement" do
  let opening ← mark "\x7b"
  let body ← many (rules .statement)
  let closing ← mark "\x7d"
  return opening ++ body ++ closing

/-! ## Arguments -/

/-- The words that open an expression and so cannot name an argument. -/
def unnameable : List String :=
  ["new", "clone", "print", "include", "include_once", "require", "require_once", "list", "yield"]

/-- The name of an argument and its colon. -/
def argumentName : Scan Pieces := do
  match ← ahead false with
  | .word word =>
    require (!unnameable.contains word)
    let name ← inField "name" name
    let colon ← mark ":"
    return name ++ colon
  | _ => refuse

def argumentEnds : Scan Bool := do
  match ← ahead false with
  | .mark "," | .mark ")" => return true
  | _ => return false

/-- A spread value. -/
def unpacking (rules : Rules) : Scan Pieces := node "variadic_unpacking" do
  let dots ← mark "..."
  let value ← rules.anyExpression
  return dots ++ value

/-- A word that stands for a class by itself. -/
def scopeWords : List String := ["self", "parent", "static"]

/-- One of the words that stand for a class, as an argument of its own. -/
def scopeArgument : Scan Pieces := do
  require (← aheadIsWord scopeWords)
  let name ← name
  require (← argumentEnds)
  return name

def argument (rules : Rules) : Scan Pieces := node "argument" do
  let label ← optional argumentName
  let reference ← optional (node "reference_modifier" (mark "&"))
  let value ← scopeArgument <|> do
    if (← ahead false) == .mark "..." then unpacking rules else rules.anyExpression
  return label ++ reference ++ value

def arguments (rules : Rules) : Scan Pieces := node "arguments" do
  let opening ← mark "("
  let placeholder : Scan Pieces := do
    let dots ← node "variadic_placeholder" (mark "...")
    require ((← ahead false) == .mark ")")
    return dots
  let values ← placeholder <|> looseCommaList (argument rules)
  let closing ← mark ")"
  return opening ++ values ++ closing

/-! ## Attributes and modifiers -/

def oneAttribute (rules : Rules) : Scan Pieces := node "attribute" do
  let name ← anyName false
  let parameters ← whenMark "(" (inField "parameters" (arguments rules))
  return name ++ parameters

/-- The attributes in one pair of brackets. -/
def attributeGroup (rules : Rules) : Scan Pieces := node "attribute_group" do
  let opening ← mark "#["
  let attributes ← commaList (oneAttribute rules)
  let comma ← optional (mark ",")
  let closing ← mark "]"
  return opening ++ attributes ++ comma ++ closing

/-- The attributes of a declaration, if it has any. -/
def attributes (rules : Rules) : Scan Pieces := do
  if (← ahead false) == .mark "#[" then
    inField "attributes" (node "attribute_list" (many1 (attributeGroup rules)))
  else return []

/-- What may be done to a property from outside. -/
def visibilityOperation : Scan Pieces := do
  let opening ← mark "("
  require (← aheadIsWord ["set"])
  let operation ← wordAs "operation"
  let closing ← mark ")"
  return opening ++ operation ++ closing

/-- `public`, `protected` or `private`, possibly for writing only. -/
def visibility : Scan Pieces := do
  match ← ahead false with
  | .word "public" => node "visibility_modifier" (do
      let word ← keyword "public"
      return word ++ (← optional visibilityOperation))
  | .word "protected" => node "visibility_modifier" (do
      let word ← keyword "protected"
      return word ++ (← optional visibilityOperation))
  | .word "private" => node "visibility_modifier" (do
      let word ← keyword "private"
      return word ++ (← optional visibilityOperation))
  | _ => refuse

def modifier : Scan Pieces := do
  match ← ahead false with
  | .word "var" => wordAs "var_modifier"
  | .word "static" => wordAs "static_modifier"
  | .word "final" => wordAs "final_modifier"
  | .word "abstract" => wordAs "abstract_modifier"
  | .word "readonly" => wordAs "readonly_modifier"
  | _ => visibility

def classModifier : Scan Pieces := do
  match ← ahead false with
  | .word "final" => wordAs "final_modifier"
  | .word "abstract" => wordAs "abstract_modifier"
  | .word "readonly" => wordAs "readonly_modifier"
  | _ => refuse

/-- The ampersand of a function that returns a reference, or of a parameter that takes one. -/
def referenceMark : Scan Pieces :=
  whenMark "&" (inField "reference_modifier" (node "reference_modifier" (mark "&")))

/-! ## Functions -/

/-- A value given with `=`, ending where a comma, a parenthesis or the statement ends. -/
def assigned (rules : Rules) (field : String) (closes : Bool) : Scan Pieces := do
  if ← nextIs closes "=" then
    let sign ← mark "="
    let value ← inField field (rules (.expression 0 closes false))
    return sign ++ value
  else return []

/-- A type, where the next token begins one. -/
def typeAhead : Scan Pieces := do
  match ← ahead false with
  | .word _ | .mark "\\" | .mark "?" | .mark "(" => inField "type" anyType
  | _ => return []

def hookBody (rules : Rules) : Scan Pieces := do
  match ← ahead false with
  | .mark "=>" =>
    let arrow ← mark "=>"
    let value ← inField "body" rules.lastExpression
    let ending ← statementEnd
    return arrow ++ value ++ ending
  | .mark "\x7b" => inField "body" (compound rules)
  | _ => statementEnd

/-- A reference to a variable's name, or the name itself. -/
def promotedName : Scan Pieces := do
  if (← ahead false) == .mark "&" then
    inField "name" (node "by_ref" (do
      let mark ← mark "&"
      let name ← variableName
      return mark ++ name))
  else inField "name" variableName

/-- What stands behind the attributes and the type of a plain or variadic parameter. -/
def parameterRest (rules : Rules) (opening : Pieces) : Scan Pieces := do
  let reference ← referenceMark
  if (← ahead false) == .mark "..." then
    let dots ← mark "..."
    let name ← inField "name" variableName
    wrap "variadic_parameter" (opening ++ reference ++ dots ++ name)
  else
    let name ← inField "name" variableName
    let value ← assigned rules "default_value" false
    wrap "simple_parameter" (opening ++ reference ++ name ++ value)

/-- The modifiers of a parameter that is a property as well. -/
def promotionModifiers : Scan Pieces := many1 do
  match ← ahead false with
  | .word "readonly" => inField "readonly" (wordAs "readonly_modifier")
  | _ => inField "visibility" visibility

mutual

/-- The hooks of a property, where parameters nest at most `fuel` deep. -/
def hooksFrom (rules : Rules) : Nat → Scan Pieces
  | 0 => refuse
  | fuel + 1 => node "property_hook_list" do
    let opening ← mark "\x7b"
    let hooks ← many (hookFrom rules fuel)
    let closing ← mark "\x7d"
    return opening ++ hooks ++ closing

def hookFrom (rules : Rules) : Nat → Scan Pieces
  | 0 => refuse
  | fuel + 1 => node "property_hook" do
    let attributes ← attributes rules
    let final ← whenWord "final" (inField "final" (wordAs "final_modifier"))
    let reference ← referenceMark
    let name ← name
    let parameters ← whenMark "(" (inField "parameters" (parametersFrom rules fuel))
    let body ← hookBody rules
    return attributes ++ final ++ reference ++ name ++ parameters ++ body

def parameterFrom (rules : Rules) : Nat → Scan Pieces
  | 0 => refuse
  | fuel + 1 => do
    let attributes ← attributes rules
    if ← aheadIsWord ["public", "protected", "private", "readonly"] then
      let modifiers ← promotionModifiers
      let type ← typeAhead
      let name ← promotedName
      let value ← assigned rules "default_value" false
      let hooks ← whenMark "\x7b" (hooksFrom rules fuel)
      wrap "property_promotion_parameter" (attributes ++ modifiers ++ type ++ name ++ value ++ hooks)
    else
      let type ← typeAhead
      parameterRest rules (attributes ++ type)

def parametersFrom (rules : Rules) : Nat → Scan Pieces
  | 0 => refuse
  | fuel + 1 => node "formal_parameters" do
    let opening ← mark "("
    let parameters ← looseCommaList (parameterFrom rules fuel)
    let closing ← mark ")"
    return opening ++ parameters ++ closing

end

def parameters (rules : Rules) : Scan Pieces := fun source i =>
  parametersFrom rules (source.size + 2 - i) source i

def hooks (rules : Rules) : Scan Pieces := fun source i =>
  hooksFrom rules (source.size + 2 - i) source i

/-- A function from its keyword to its return type. -/
def functionHeader (rules : Rules) : Scan Pieces := do
  let word ← keyword "function"
  let reference ← optional (node "reference_modifier" (mark "&"))
  let name ← inField "name" name
  let parameters ← inField "parameters" (parameters rules)
  let type ← optionalReturnType
  return word ++ reference ++ name ++ parameters ++ type

/-! ## Members -/

/-- A named constant and its value. -/
def constant (rules : Rules) : Scan Pieces := node "const_element" do
  let name ← name
  let sign ← mark "="
  let value ← rules.lastExpression
  return name ++ sign ++ value

/-- The type of a constant: a built-in one, or a name that another name follows. -/
def constantType : Scan Pieces := do
  match ← lookahead plainType with
  | some [type] =>
    if type.type == "primitive_type" then inField "type" anyType
    else optional do
      let type ← inField "type" anyType
      match ← ahead false with
      | .word _ => return type
      | _ => refuse
  | _ => optional (inField "type" anyType)

/-- A property and its default. -/
def propertyElement (rules : Rules) : Scan Pieces := node "property_element" do
  let name ← inField "name" variableName
  let value ← assigned rules "default_value" true
  return name ++ value

/-- A class named in a list of classes. -/
def className : Scan Pieces := anyName true

/-- What a trait's member is taken from. -/
def traitMember : Scan Pieces := do
  let head ← anyName false
  if (← ahead false) == .mark "::" then
    let colons ← mark "::"
    let member ← name
    wrap "class_constant_access_expression" (head ++ colons ++ member)
  else return head

/-- One rule for the members of used traits. -/
def traitRule : Scan Pieces := do
  let member ← traitMember
  if ← aheadIsWord ["insteadof"] then
    let word ← keyword "insteadof"
    let name ← name
    let rule ← wrap "use_instead_of_clause" (member ++ word ++ name)
    let ending ← statementEnd
    return rule ++ ending
  else
    let word ← keyword "as"
    let visible ← optional visibility
    let newName ← match ← ahead true with
      | .word _ => name
      | _ => if visible.isEmpty then refuse else Scan.pure []
    let rule ← wrap "use_as_clause" (member ++ word ++ visible ++ newName)
    let ending ← statementEnd
    return rule ++ ending

/-- The rules for the members of used traits. -/
def traitRules : Scan Pieces := node "use_list" do
  let opening ← mark "\x7b"
  let rules ← many traitRule
  let closing ← mark "\x7d"
  return opening ++ rules ++ closing

def traitUse : Scan Pieces := node "use_declaration" do
  let word ← keyword "use"
  let names ← commaList className
  let ending ← if ← nextIs true "\x7b" then traitRules else statementEnd
  return word ++ names ++ ending

/-- A method from its header on. -/
def method (rules : Rules) (opening : Pieces) : Scan Pieces := do
  let header ← functionHeader rules
  let body ← if ← nextIs true "\x7b" then inField "body" (compound rules) else statementEnd
  wrap "method_declaration" (opening ++ header ++ body)

/-- The constants of a type from the keyword on. -/
def constants (rules : Rules) (opening : Pieces) : Scan Pieces := do
  let word ← keyword "const"
  let type ← constantType
  let elements ← commaList (constant rules)
  let ending ← statementEnd
  wrap "const_declaration" (opening ++ word ++ type ++ elements ++ ending)

/-- Properties from their type on. -/
def properties (rules : Rules) (opening : Pieces) : Scan Pieces := do
  let type ← typeAhead
  let elements ← commaList (propertyElement rules)
  let ending ← if ← nextIs true "\x7b" then hooks rules else statementEnd
  wrap "property_declaration" (opening ++ type ++ elements ++ ending)

/-- A case of an enum from the keyword on. -/
def enumCase (rules : Rules) (opening : Pieces) : Scan Pieces := do
  let word ← keyword "case"
  let name ← inField "name" name
  let value ← assigned rules "value" true
  let ending ← statementEnd
  wrap "enum_case" (opening ++ word ++ name ++ value ++ ending)

/-- One member of a class, interface, trait or enum. Only enums have cases, and they have no
properties. -/
def member (rules : Rules) (ofEnum : Bool) : Scan Pieces := do
  let attributes ← attributes rules
  match ← ahead false with
  | .word "use" => if attributes.isEmpty then traitUse else refuse
  | .word "case" => if ofEnum then enumCase rules attributes else refuse
  | _ =>
    let modifiers ← many modifier
    let opening := attributes ++ modifiers
    match ← ahead false with
    | .word "function" => method rules opening
    | .word "const" => constants rules opening
    | _ => if modifiers.isEmpty || ofEnum then refuse else properties rules opening

/-- The members of a type in braces. -/
def members (rules : Rules) (ofEnum : Bool) : Scan Pieces :=
  node (if ofEnum then "enum_declaration_list" else "declaration_list") do
    let opening ← mark "\x7b"
    let members ← many (member rules ofEnum)
    let closing ← mark "\x7d"
    return opening ++ members ++ closing

/-- The types that a type extends. -/
def baseClause : Scan Pieces := whenWord "extends" <| node "base_clause" do
  let word ← keyword "extends"
  let names ← commaList className
  return word ++ names

/-- The interfaces that a type implements. -/
def interfaceClause : Scan Pieces := whenWord "implements" <| node "class_interface_clause" do
  let word ← keyword "implements"
  let names ← commaList className
  return word ++ names

/-! ## Types -/

/-- A class from its modifiers on. -/
def classDeclaration (rules : Rules) (attributes : Pieces) : Scan Pieces := do
  let modifiers ← many classModifier
  let word ← keyword "class"
  let name ← inField "name" name
  let base ← baseClause
  let interfaces ← interfaceClause
  let body ← inField "body" (members rules false)
  wrap "class_declaration" (attributes ++ modifiers ++ word ++ name ++ base ++ interfaces ++ body)

/-- An interface from the keyword on. -/
def interfaceDeclaration (rules : Rules) (attributes : Pieces) : Scan Pieces := do
  let word ← keyword "interface"
  let name ← inField "name" name
  let base ← baseClause
  let body ← inField "body" (members rules false)
  wrap "interface_declaration" (attributes ++ word ++ name ++ base ++ body)

/-- A trait from the keyword on. -/
def traitDeclaration (rules : Rules) (attributes : Pieces) : Scan Pieces := do
  let word ← keyword "trait"
  let name ← inField "name" name
  let body ← inField "body" (members rules false)
  wrap "trait_declaration" (attributes ++ word ++ name ++ body)

/-- An enum from the keyword on. -/
def enumDeclaration (rules : Rules) (attributes : Pieces) : Scan Pieces := do
  let word ← keyword "enum"
  let name ← inField "name" name
  let type ← optionalReturnType
  let interfaces ← interfaceClause
  let body ← inField "body" (members rules true)
  wrap "enum_declaration" (attributes ++ word ++ name ++ type ++ interfaces ++ body)

/-- A class without a name, from its attributes on. -/
def anonymousClass (rules : Rules) : Scan Pieces := do
  let attributes ← attributes rules
  let modifiers ← many classModifier
  let word ← keyword "class"
  let arguments ← whenMark "(" (arguments rules)
  let base ← baseClause
  let interfaces ← interfaceClause
  let body ← inField "body" (members rules false)
  wrap "anonymous_class" (attributes ++ modifiers ++ word ++ arguments ++ base ++ interfaces ++ body)

end PhpAudit.Grammar.Scan
