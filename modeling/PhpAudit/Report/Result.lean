import PhpAudit.Report.Issue

/-!
# Results

How one analyzer's run ended, and what it found. Only failures and warnings carry issues.
-/

namespace PhpAudit.Report

open PhpAudit.Data PhpAudit.Number

/-- The outcome of one run. -/
structure Result where
  analyzerId : Value
  status : Status
  message : Value
  issues : List Issue := []
  executionTime : Value := .number (Binary64.zero false)
  metadata : Value := .dict []
deriving BEq, Repr

namespace Result

/-- A result of a given status. Issues are dropped unless the status is a failure or a warning. -/
def ofStatus (status : Status) (analyzerId message : Value) (issues : List Issue := [])
    (executionTime : Value := .number (Binary64.zero false)) (metadata : Value := .null) : Result where
  analyzerId
  status
  message
  issues := match status with
    | .failed => issues
    | .warning => issues
    | _ => []
  executionTime
  metadata := metadata.orElse (.dict [])

/-- Whether the result leaves nothing to do. -/
def isSuccess (result : Result) : Bool := result.status.isSuccess

/-- The same result with another execution time. -/
def withExecutionTime (result : Result) (time : Value) : Result :=
  { result with executionTime := time }

def toValue (result : Result) : Value :=
  .record [
    ("analyzer_id", result.analyzerId),
    ("status", .text result.status.text),
    ("message", result.message),
    ("issues", .list (result.issues.map Issue.toValue)),
    ("execution_time", result.executionTime),
    ("metadata", result.metadata)]

end Result

end PhpAudit.Report
