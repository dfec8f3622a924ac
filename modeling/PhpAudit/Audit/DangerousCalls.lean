import PhpAudit.Audit.Calls

/-!
# Calls of dangerous functions

Reports every call of a function that runs code or commands, by the name that is written at the
call. Functions that are called by another name, or by one that is only known when the program
runs, are not seen.
-/

namespace PhpAudit.Audit.DangerousCalls

open Data Report Syntax

/-- The functions, each with what it does. -/
def table : List (String × String) := [
  ("eval", "Evaluates arbitrary PHP code"),
  ("exec", "Executes an external program"),
  ("system", "Executes an external program and displays the output"),
  ("passthru", "Executes an external program and passes raw output through"),
  ("shell_exec", "Executes a command via the shell"),
  ("assert", "Can evaluate string assertions as code"),
  ("create_function", "Creates a function from a code string"),
  ("unserialize", "Can instantiate arbitrary objects from untrusted input"),
  ("popen", "Opens a pipe to a shell process"),
  ("proc_open", "Executes a command with open file pointers")]

/-- What the analysis says about itself. -/
def description : Description where
  id := .text "dangerous-functions"
  name := .text "Dangerous Functions"
  description := .text "Detects calls to functions that execute code or shell commands"
  category := .security
  severity := .high
  tags := [.text "security", .text "injection", .text "rce"]

/-- The calls in a file, each with its entry of the table: sought function by function and then put
in order. -/
def calls (forest : Forest) : List (Node × (String × String)) :=
  inOrder (table.flatMap fun entry =>
    ((Subject.forest forest).functionCalls entry.1).map fun call => (call, entry))

/-- What is reported about a call. -/
def finding (file : String) (call : Node) (name effect : String) : Finding where
  message := .text ("Dangerous function " ++ name ++ "() called")
  file
  line := some call.startLine
  severity := .high
  recommendation := .text ("Avoid " ++ name ++ "(). " ++ effect ++ "; never pass user input to it")
  column := .int call.startColumn
  metadata := .record [("function", .text name)]

/-- What is reported about a file. -/
def findings (forestOf : String → Forest) (file : String) : List Finding :=
  (calls (forestOf file)).map fun (call, name, effect) => finding file call name effect

def issues (forestOf : String → Forest) (session : Session) : List Issue :=
  issuesInAll session (findings forestOf)

/-- The message about some issues. -/
def message (issues : List Issue) : Value :=
  countMessage issues "dangerous function call(s)" "No dangerous function calls found"

def result (forestOf : String → Forest) (session : Session) : Result :=
  let issues := issues forestOf session
  resultFor description session (message issues) issues

/-- The analyzer, given how the syntax of a file is found. -/
def analyzer (forestOf : String → Forest) : Analyzer where
  description := .ok description
  run := fun session => .finished (result forestOf session)

end PhpAudit.Audit.DangerousCalls
