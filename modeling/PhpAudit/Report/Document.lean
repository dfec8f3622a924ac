import PhpAudit.Json.Writer
import PhpAudit.Report.Collection

/-!
# Reports in JSON

A report holds a summary and every result in order.
-/

namespace PhpAudit.Report

open PhpAudit.Data PhpAudit.Number

namespace Collection

/-- The figures of a collection. -/
def summary (collection : Collection) : Except Fault Value := do
  let time ← collection.totalExecutionTime
  return .record [
    ("total", .int collection.size),
    ("passed", .int (collection.count .passed)),
    ("failed", .int (collection.count .failed)),
    ("warnings", .int (collection.count .warning)),
    ("skipped", .int (collection.count .skipped)),
    ("errors", .int (collection.count .error)),
    ("total_issues", .int collection.totalIssues),
    ("score", .number collection.score),
    ("execution_time", .number (time.roundTo 4))]

/-- A report as a value. -/
def report (collection : Collection) : Except Fault Value := do
  return .record [("summary", ← collection.summary), ("results", .list collection.toValues)]

/-- A report as JSON. The limit is the one that the machine has for the digits of integers, which may
be lifted. -/
def toJson (collection : Collection) (style : Json.Style)
    (limit : Option Nat := some digitLimit) : Except Fault String := do
  return (← Json.Document.ofValue limit (← collection.report)).render style

end Collection

end PhpAudit.Report
