import PhpAudit.Audit.Calls

/-!
# Raw queries put together from strings

Reports every call that takes a query as raw text and whose arguments hold a concatenation or a
string with values put into it.
-/

namespace PhpAudit.Audit.RawQueries

open Data Report Syntax

/-- A call that takes raw text. -/
inductive RawCall where
  /-- The call of a method on a type. -/
  | onType (type method : String)
  /-- The call of a method on a value. -/
  | onValue (method : String)
deriving DecidableEq, Repr

/-- How a call is named in reports. -/
def RawCall.label : RawCall → String
  | .onType type method => type ++ "::" ++ method ++ "()"
  | .onValue method => method ++ "()"

def RawCall.nodes (raw : RawCall) (forest : Forest) : List Node :=
  match raw with
  | .onType type method => (Subject.forest forest).staticCalls type method
  | .onValue method => (Subject.forest forest).methodCalls method

/-- The calls that take raw text. -/
def table : List RawCall :=
  ["raw", "select", "statement", "unprepared"].map (RawCall.onType "DB") ++
    ["whereRaw", "orWhereRaw", "selectRaw", "orderByRaw", "havingRaw", "groupByRaw"].map
      RawCall.onValue

/-- What the analysis says about itself. -/
def description : Description where
  id := .text "raw-query-injection"
  name := .text "Raw Query Injection"
  description := .text "Detects raw SQL queries built with string concatenation or interpolation"
  category := .security
  severity := .critical
  tags := [.text "security", .text "sql", .text "injection"]

/-- The calls in a file, each with its entry of the table: sought entry by entry and then put in
order. -/
def calls (forest : Forest) : List (Node × RawCall) :=
  inOrder (table.flatMap fun raw => (raw.nodes forest).map fun call => (call, raw))

/-- The kind of the node that holds the arguments of a call. -/
def argumentsKind : String := "arguments"

/-- Whether the arguments of a call are put together from values. -/
def isUnsafe (call : Node) : Bool :=
  match call.childOfKind? argumentsKind with
  | some arguments =>
    (Subject.tree arguments).hasConcatenation || (Subject.tree arguments).hasInterpolation
  | none => false

/-- What is reported about a call. -/
def finding (file : String) (call : Node) (raw : RawCall) : Finding where
  message := .text ("Raw SQL in " ++ raw.label ++ " is built from dynamic strings")
  file
  line := some call.startLine
  severity := .critical
  recommendation :=
    .text "Use parameter bindings (? placeholders) instead of building SQL strings"
  column := .int call.startColumn
  metadata := .record [("call", .text raw.label)]

/-- What is reported about a file. -/
def findings (forestOf : String → Forest) (file : String) : List Finding :=
  ((calls (forestOf file)).filter fun entry => isUnsafe entry.1).map fun (call, raw) =>
    finding file call raw

def issues (forestOf : String → Forest) (session : Session) : List Issue :=
  issuesInAll session (findings forestOf)

/-- The message about some issues. -/
def message (issues : List Issue) : Value :=
  countMessage issues "potential SQL injection(s) in raw queries" "No unsafe raw queries found"

def result (forestOf : String → Forest) (session : Session) : Result :=
  let issues := issues forestOf session
  resultFor description session (message issues) issues

/-- The analyzer, given how the syntax of a file is found. -/
def analyzer (forestOf : String → Forest) : Analyzer where
  description := .ok description
  run := fun session => .finished (result forestOf session)

end PhpAudit.Audit.RawQueries
