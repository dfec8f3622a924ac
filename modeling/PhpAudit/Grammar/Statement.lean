import PhpAudit.Grammar.Expression

/-!
# Statements

A statement is chosen by its first word. Words that end a block are words like any other outside
of such a block, so a sequence of statements is told which words stop it.
-/

namespace PhpAudit.Grammar.Scan

/-- Statements up to a word that ends or divides the block. -/
def statementsUntil (rules : Rules) (stops : List String) : Scan Pieces := many do
  require !(← aheadIsWord stops)
  rules .statement

/-- The words that end a block opened by a colon, or divide it. -/
def colonStops : List String := ["endif", "else", "elseif", "endwhile", "endforeach"]

/-- A colon and the statements behind it. -/
def colonBlock (rules : Rules) : Scan Pieces := node "colon_block" do
  let colon ← mark ":"
  let body ← statementsUntil rules colonStops
  return colon ++ body

def condition (rules : Rules) : Scan Pieces := inField "condition" (parenthesized rules)

/-- The word that ends a block, and the statement's end. -/
def blockEnd (word : String) : Scan Pieces := do
  let word ← keyword word
  let ending ← statementEnd
  return word ++ ending

/-- Expressions with commas between them, where a list may be given. -/
def expressions (rules : Rules) (closes : Bool) : Scan Pieces := do
  let head ← rules (.expression 0 closes false)
  if ← nextIs closes "," then
    let tail ← many do
      let comma ← mark ","
      let next ← rules (.expression 0 closes false)
      return comma ++ next
    wrap "sequence_expression" (head ++ tail)
  else return head

/-! ## Conditions and loops -/

/-- Whether an `elseif` here has a body of its own rather than a colon. -/
def plainElseIfAhead (rules : Rules) : Scan Bool := do
  match ← lookahead (do
      let _ ← keyword "elseif"
      let _ ← parenthesized rules
      ahead false) with
  | some next => return next != .mark ":"
  | none => return true

/-- Whether an `else` here has a body of its own rather than a colon. -/
def plainElseAhead : Scan Bool := do
  match ← lookahead (do let _ ← keyword "else"; ahead false) with
  | some next => return next != .mark ":"
  | none => return false

/-- The `elseif` clauses of a conditional without colons. -/
def elseIfClauses (rules : Rules) : Scan Pieces := many <| inField "alternative" <| do
  require (← aheadIsWord ["elseif"])
  require (← plainElseIfAhead rules)
  node "else_if_clause" do
    let word ← keyword "elseif"
    let condition ← condition rules
    let body ← inField "body" (rules .statement)
    return word ++ condition ++ body

/-- The `else` clause of a conditional without colons. -/
def elseClause (rules : Rules) : Scan Pieces := do
  if (← aheadIsWord ["else"]) && (← plainElseAhead) then
    inField "alternative" (node "else_clause" (do
      let word ← keyword "else"
      let body ← inField "body" (rules .statement)
      return word ++ body))
  else return []

/-- The clauses of a conditional with colons, up to its end. -/
def colonClauses (rules : Rules) : Scan Pieces := do
  let elseIfs ← many <| inField "alternative" <| node "else_if_clause" do
    let word ← keyword "elseif"
    let condition ← condition rules
    let body ← inField "body" (colonBlock rules)
    return word ++ condition ++ body
  let otherwise ← whenWord "else" <| inField "alternative" <| node "else_clause" do
    let word ← keyword "else"
    let body ← inField "body" (colonBlock rules)
    return word ++ body
  let ending ← blockEnd "endif"
  return elseIfs ++ otherwise ++ ending

def ifStatement (rules : Rules) : Scan Pieces := node "if_statement" do
  let word ← keyword "if"
  let condition ← condition rules
  if (← ahead false) == .mark ":" then
    let body ← inField "body" (colonBlock rules)
    let clauses ← colonClauses rules
    return word ++ condition ++ body ++ clauses
  else
    let body ← inField "body" (rules .statement)
    let elseIfs ← elseIfClauses rules
    let otherwise ← elseClause rules
    return word ++ condition ++ body ++ elseIfs ++ otherwise

/-- The body of a loop: a statement, or a colon and statements up to the given word. -/
def loopBody (rules : Rules) (word : String) : Scan Pieces := do
  if (← ahead false) == .mark ":" then
    let body ← inField "body" (colonBlock rules)
    let ending ← blockEnd word
    return body ++ ending
  else inField "body" (rules .statement)

/-- A loop with its condition in front. -/
def whileStatement (rules : Rules) : Scan Pieces := node "while_statement" do
  let word ← keyword "while"
  let condition ← condition rules
  let body ← loopBody rules "endwhile"
  return word ++ condition ++ body

/-- A loop with its condition behind. -/
def doStatement (rules : Rules) : Scan Pieces := node "do_statement" do
  let word ← keyword "do"
  let body ← inField "body" (rules .statement)
  let loop ← keyword "while"
  let condition ← condition rules
  let ending ← statementEnd
  return word ++ body ++ loop ++ condition ++ ending

/-- One of the three parts of a counting loop's head. -/
def forPart (rules : Rules) (field stop : String) : Scan Pieces := do
  if (← ahead false) == .mark stop then return []
  else inField field (expressions rules false)

/-- A counting loop. -/
def forStatement (rules : Rules) : Scan Pieces := node "for_statement" do
  let word ← keyword "for"
  let opening ← mark "("
  let first ← forPart rules "initialize" ";"
  let semicolon ← mark ";"
  let second ← forPart rules "condition" ";"
  let semicolon' ← mark ";"
  let third ← forPart rules "update" ")"
  let closing ← mark ")"
  let head := word ++ opening ++ first ++ semicolon ++ second ++ semicolon' ++ third ++ closing
  match ← ahead false with
  | .mark ":" =>
    let colon ← mark ":"
    let body ← statementsUntil rules ["endfor"]
    let ending ← blockEnd "endfor"
    return head ++ colon ++ body ++ ending
  | .mark ";" => return head ++ (← mark ";")
  | _ => return head ++ (← inField "body" (rules .statement))

/-- What a loop over elements assigns each of them to. -/
def eachTarget (rules : Rules) : Scan Pieces := do
  if (← ahead false) == .mark "&" then reference rules
  else
    let target ← rules (.expression 0 false true)
    let source ← source
    if lastType target == "array_creation_expression" then
      return (asTargets? source.size target).getD target
    else return target

/-- The target of a loop over elements, possibly behind one for the key. -/
def eachPart (rules : Rules) : Scan Pieces := do
  let head ← eachTarget rules
  if (← ahead false) == .mark "=>" then
    let arrow ← mark "=>"
    let value ← eachTarget rules
    wrap "pair" (head ++ arrow ++ value)
  else return head

/-- A loop over elements. -/
def foreachStatement (rules : Rules) : Scan Pieces := node "foreach_statement" do
  let word ← keyword "foreach"
  let opening ← mark "("
  let list ← rules.anyExpression
  let as_ ← keyword "as"
  let part ← eachPart rules
  let closing ← mark ")"
  let head := word ++ opening ++ list ++ as_ ++ part ++ closing
  if (← ahead false) == .mark ";" then return head ++ (← mark ";")
  else return head ++ (← loopBody rules "endforeach")

/-! ## Cases -/

/-- The words that end one case of a switch. -/
def caseStops : List String := ["case", "default", "endswitch"]

/-- The colon of a case, or what may stand in its place. -/
def caseColon : Scan Pieces := do
  if ← nextIs true ":" then mark ":" else statementEnd

def switchCase (rules : Rules) : Scan Pieces := do
  if ← aheadIsWord ["case"] then
    node "case_statement" do
      let word ← keyword "case"
      let value ← inField "value" rules.lastExpression
      let colon ← caseColon
      let body ← statementsUntil rules caseStops
      return word ++ value ++ colon ++ body
  else
    node "default_statement" do
      let word ← keyword "default"
      let colon ← caseColon
      let body ← statementsUntil rules caseStops
      return word ++ colon ++ body

def switchStatement (rules : Rules) : Scan Pieces := node "switch_statement" do
  let word ← keyword "switch"
  let condition ← condition rules
  let block ← inField "body" (node "switch_block" (do
    if (← ahead false) == .mark ":" then
      let colon ← mark ":"
      let cases ← many (switchCase rules)
      let ending ← blockEnd "endswitch"
      return colon ++ cases ++ ending
    else
      let opening ← mark "\x7b"
      let cases ← many (switchCase rules)
      let closing ← mark "\x7d"
      return opening ++ cases ++ closing))
  return word ++ condition ++ block

/-! ## Errors -/

/-- The types that a clause catches. -/
def caughtTypes : Scan Pieces :=
  node "type_list" (separated "|" (node "named_type" (anyName false)))

def catchClause (rules : Rules) : Scan Pieces := node "catch_clause" do
  let word ← keyword "catch"
  let opening ← mark "("
  let type ← inField "type" caughtTypes
  let name ← whenMark "$" (inField "name" variableName)
  let closing ← mark ")"
  let body ← inField "body" (compound rules)
  return word ++ opening ++ type ++ name ++ closing ++ body

/-- A clause that is run in any case. -/
def finallyClause (rules : Rules) : Scan Pieces := node "finally_clause" do
  let word ← keyword "finally"
  let body ← inField "body" (compound rules)
  return word ++ body

def tryStatement (rules : Rules) : Scan Pieces := node "try_statement" do
  let word ← keyword "try"
  let body ← inField "body" (compound rules)
  let clauses ← many1 do
    if ← aheadIsWord ["catch"] then catchClause rules else finallyClause rules
  return word ++ body ++ clauses

/-! ## Declarations of names -/

def namespaceDefinition (rules : Rules) : Scan Pieces := node "namespace_definition" do
  let word ← keyword "namespace"
  if (← ahead false) == .mark "\x7b" then
    return word ++ (← inField "body" (compound rules))
  let name ← inField "name" namespaceName
  if ← nextIs true "\x7b" then
    return word ++ name ++ (← inField "body" (compound rules))
  else return word ++ name ++ (← statementEnd)

/-- The kind of what is imported, if it is no class. -/
def useType : Scan Pieces := do
  match ← ahead false with
  | .word "function" => inField "type" (keyword "function")
  | .word "const" => inField "type" (keyword "const")
  | _ => return []

def useClause (closes : Bool) : Scan Pieces := node "namespace_use_clause" do
  let type ← useType
  let name ← anyName closes
  if closes && (← ahead true) == .nothing then return type ++ name
  else
    let newName ← whenWord "as" do
      let word ← keyword "as"
      let newName ← inField "alias" name_
      return word ++ newName
    return type ++ name ++ newName
where
  /-- Any word, as a name. -/
  name_ : Scan Pieces := name

/-- The imports behind a common namespace. -/
def useGroup : Scan Pieces := inField "body" <| node "namespace_use_group" do
  let opening ← mark "\x7b"
  let clauses ← commaList (useClause false)
  let comma ← optional (mark ",")
  let closing ← mark "\x7d"
  return opening ++ clauses ++ comma ++ closing

/-- The parts of a namespace in front of a group, each with the separator behind it but for the
last, and the last separator. -/
def groupSpace : Scan Pieces := do
  let leading ← whenMark "\\" (mark "\\")
  let head ← name
  let rest ← many do
    let separator ← mark "\\"
    let part ← name
    return separator ++ part
  let separator ← mark "\\"
  return leading ++ group "namespace_name" none (head ++ rest) ++ separator

/-- A declaration of imports. -/
def useDeclaration : Scan Pieces := node "namespace_use_declaration" do
  let word ← keyword "use"
  let grouped : Scan Pieces := do
    let type ← useType
    let space ← groupSpace
    let group ← useGroup
    return type ++ space ++ group
  let clauses ← grouped <|> commaList (useClause true)
  let ending ← statementEnd
  return word ++ clauses ++ ending

/-- Constants outside of a type. -/
def constStatement (rules : Rules) (attributes : Pieces) : Scan Pieces := do
  let word ← keyword "const"
  let elements ← commaList (constant rules)
  let ending ← statementEnd
  wrap "const_declaration" (attributes ++ word ++ elements ++ ending)

/-- A function with a name. -/
def functionDefinition (rules : Rules) (attributes : Pieces) : Scan Pieces := do
  let header ← functionHeader rules
  let body ← inField "body" (compound rules)
  wrap "function_definition" (attributes ++ header ++ body)

/-- Whether a function's name follows the word `function` here. -/
def namedFunctionAhead : Scan Bool := do
  match ← lookahead (do
      let _ ← keyword "function"
      let _ ← optional (mark "&")
      ahead false) with
  | some (.word _) => return true
  | _ => return false

/-- Variables that a function keeps between calls. -/
def staticDeclaration (rules : Rules) : Scan Pieces := node "function_static_declaration" do
  let word ← keyword "static"
  let targets ← commaList <| node "static_variable_declaration" do
    let name ← inField "name" variableName
    let value ← assigned rules "value" true
    return name ++ value
  let ending ← statementEnd
  return word ++ targets ++ ending

/-- Whether variables follow the word `static` here. -/
def staticVariablesAhead : Scan Bool := do
  match ← lookahead (do let _ ← keyword "static"; ahead false) with
  | some next => return next == .mark "$"
  | none => return false

/-- Variables taken from outside a function. -/
def globalDeclaration (rules : Rules) : Scan Pieces := node "global_declaration" do
  let word ← keyword "global"
  let targets ← commaList (rules .simpleVariable)
  let ending ← statementEnd
  return word ++ targets ++ ending

/-! ## Other statements -/

/-- A literal, as a directive takes it. -/
def literal (rules : Rules) : Scan Pieces := do
  match ← ahead false with
  | .mark "\x27" => singleQuoted
  | .mark "\x22" => doubleQuoted rules
  | .mark "<<<" => heredoc rules
  | .digit => number
  | .mark "." => number
  | .word "true" | .word "false" => wordLeaf "boolean"
  | .word "null" => wordLeaf "null"
  | .word "b" => prefixedString rules
  | _ => refuse

def directive (rules : Rules) : Scan Pieces := node "declare_directive" do
  let name ← keyword "ticks" <|> keyword "encoding" <|> keyword "strict_types"
  let sign ← mark "="
  let value ← literal rules
  return name ++ sign ++ value

/-- Directives, alone or for statements. -/
def declareStatement (rules : Rules) : Scan Pieces := node "declare_statement" do
  let word ← keyword "declare"
  let opening ← mark "("
  let directives ← commaList (directive rules)
  let closing ← mark ")"
  let head := word ++ opening ++ directives ++ closing
  let close ← lookahead statementEnd
  match close with
  | some _ => return head ++ (← statementEnd)
  | none =>
    if (← ahead false) == .mark ":" then
      let colon ← mark ":"
      let body ← statementsUntil rules ["enddeclare"]
      let ending ← blockEnd "enddeclare"
      return head ++ colon ++ body ++ ending
    else return head ++ (← rules .statement)

/-- A keyword that may be followed by a value. -/
def valueStatement (rules : Rules) (type word : String) : Scan Pieces := node type do
  let word ← keyword word
  match ← lookahead statementEnd with
  | some _ => return word ++ (← statementEnd)
  | none =>
    let value ← rules.lastExpression
    let ending ← statementEnd
    return word ++ value ++ ending

/-- Output. -/
def echoStatement (rules : Rules) : Scan Pieces := node "echo_statement" do
  let word ← keyword "echo"
  let values ← expressions rules true
  let ending ← statementEnd
  return word ++ values ++ ending

/-- The end of the program. -/
def exitStatement (rules : Rules) : Scan Pieces := node "exit_statement" do
  let word ← keyword "exit"
  let value ← if ← nextIs true "(" then (do
      let opening ← mark "("
      let value ← if (← ahead false) == .mark ")" then Scan.pure [] else rules.anyExpression
      let closing ← mark ")"
      return opening ++ value ++ closing)
    else Scan.pure []
  let ending ← statementEnd
  return word ++ value ++ ending

/-- Removal of variables. -/
def unsetStatement (rules : Rules) : Scan Pieces := node "unset_statement" do
  let word ← keyword "unset"
  let opening ← mark "("
  let targets ← commaList do
    let target ← rules (.primary false)
    require (isVariable target)
    return target
  let comma ← optional (mark ",")
  let closing ← mark ")"
  let ending ← statementEnd
  return word ++ opening ++ targets ++ comma ++ closing ++ ending

/-- A jump. -/
def gotoStatement : Scan Pieces := node "goto_statement" do
  let word ← keyword "goto"
  let label ← name
  let ending ← statementEnd
  return word ++ label ++ ending

def expressionStatement (rules : Rules) : Scan Pieces := node "expression_statement" do
  let value ← rules.lastExpression
  let ending ← statementEnd
  return value ++ ending

/-- A place to jump to. -/
def label : Scan Pieces := node "named_label_statement" do
  let name ← name
  let colon ← mark ":"
  return name ++ colon

def attributedStatement (rules : Rules) : Scan Pieces := do
  let declaration : Scan Pieces := do
    let attributes ← attributes rules
    match ← ahead false with
    | .word "function" =>
      require (← namedFunctionAhead)
      functionDefinition rules attributes
    | .word "class" | .word "final" | .word "abstract" | .word "readonly" =>
      classDeclaration rules attributes
    | .word "interface" => interfaceDeclaration rules attributes
    | .word "trait" => traitDeclaration rules attributes
    | .word "enum" => enumDeclaration rules attributes
    | .word "const" => constStatement rules attributes
    | _ => refuse
  declaration <|> expressionStatement rules

def wordStatement (rules : Rules) (word : String) : Scan Pieces := do
  match word with
  | "if" => ifStatement rules
  | "while" => whileStatement rules
  | "do" => doStatement rules
  | "for" => forStatement rules
  | "foreach" => foreachStatement rules
  | "switch" => switchStatement rules
  | "goto" => gotoStatement
  | "continue" => valueStatement rules "continue_statement" "continue"
  | "break" => valueStatement rules "break_statement" "break"
  | "return" => valueStatement rules "return_statement" "return"
  | "try" => tryStatement rules
  | "declare" => declareStatement rules
  | "echo" => echoStatement rules
  | "exit" => exitStatement rules
  | "unset" => unsetStatement rules
  | "const" => constStatement rules []
  | "class" | "final" | "abstract" | "readonly" => classDeclaration rules []
  | "interface" => interfaceDeclaration rules []
  | "trait" => traitDeclaration rules []
  | "enum" => enumDeclaration rules []
  | "use" => useDeclaration
  | "global" => globalDeclaration rules
  | "function" =>
    if ← namedFunctionAhead then functionDefinition rules [] else expressionStatement rules
  | "static" =>
    if ← staticVariablesAhead then staticDeclaration rules else expressionStatement rules
  | "namespace" =>
    match ← lookahead (do let _ ← keyword "namespace"; ahead false) with
    | some (.mark "\\") => expressionStatement rules
    | _ => namespaceDefinition rules
  | _ => label <|> expressionStatement rules

def statement (rules : Rules) : Scan Pieces := do
  match ← ahead false with
  | .mark ";" => node "empty_statement" (mark ";")
  | .mark "\x7b" => compound rules
  | .mark "#[" => attributedStatement rules
  | .word word => wordStatement rules word
  | .nothing => refuse
  | _ => expressionStatement rules

end PhpAudit.Grammar.Scan
