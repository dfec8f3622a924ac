import PhpAudit.Report.Severity
import PhpAudit.Snippet.Basic

/-!
# Issues

A problem that an analysis reports, and where it is. Written as a value, an issue leaves out what
it does not have; read back, what was left out is absent again.
-/

namespace PhpAudit.Report

open PhpAudit.Data
open PhpAudit (Snippet)

/-- A place in a source file. -/
structure Location where
  file : Value
  line : Value
  column : Value
deriving BEq, Repr, Inhabited

namespace Location

/-- The text of a place: the file, its line and its column as far as they are known. A column
without a line is not shown. A place without a line has no text unless its file is one, and a place
whose line or column has too many digits has none either. -/
def text (location : Location) : Except Fault String :=
  if location.line.isNull then
    match location.file with
    | .text file => .ok file
    | _ => .error .wrongShape
  else do
    let place := (← location.file.shown) ++ ":" ++ (← location.line.shown)
    if location.column.isNull then return place
    else return place ++ ":" ++ (← location.column.shown)

def toValue (location : Location) : Value :=
  .record ([("file", location.file), ("line", location.line), ("column", location.column)].filter
    fun field => !field.2.isNull)

/-- The place of a record. -/
def ofEntries (entries : Entries) : Except Fault Location := do
  return {
    file := ← entries.require "file"
    line := entries.getOrNull "line"
    column := entries.getOrNull "column" }

/-- The place that a value holds. -/
def ofValue (value : Value) : Except Fault Location := do ofEntries (← value.entries)

/-- The place that a value holds, if it is present at all. -/
def ofValue? (value : Value) : Except Fault (Option Location) :=
  if value.isPresent then do return some (← ofValue value) else .ok none

end Location

/-- A problem found in a source. -/
structure Issue where
  message : Value
  location : Option Location
  severity : Severity
  recommendation : Value
  code : Value := .null
  metadata : Value := .dict []
  snippet : Option Snippet := none
deriving BEq, Repr

namespace Issue

/-- Whether a field is left out: when it is null or an empty list. -/
def isOmitted : Value → Bool
  | .null => true
  | .list items => items.isEmpty
  | _ => false

/-- An issue as a value, without what it does not have. -/
def toValue (issue : Issue) : Value :=
  .record ([
    ("message", issue.message),
    ("location", (issue.location.map Location.toValue).getD .null),
    ("severity", .text issue.severity.text),
    ("recommendation", issue.recommendation),
    ("code", issue.code),
    ("metadata", issue.metadata.orElse .null),
    ("code_snippet", (issue.snippet.map Snippet.toValue).getD .null)].filter
      fun field => !isOmitted field.2)

/-- The snippet that a value holds. A value that is no dictionary stands for an empty one. -/
def snippetOfValue? : Value → Except Fault (Option Snippet)
  | .null => .ok none
  | .dict entries => do return some (← Snippet.ofEntries entries)
  | _ => do return some (← Snippet.ofEntries [])

def ofEntries (entries : Entries) : Except Fault Issue := do
  return {
    message := ← entries.require "message"
    location := ← Location.ofValue? (entries.getOrNull "location")
    severity := ← Severity.ofValue (← entries.require "severity")
    recommendation := ← entries.require "recommendation"
    code := entries.getOrNull "code"
    metadata := (entries.getOrNull "metadata").orElse (.dict [])
    snippet := ← snippetOfValue? (entries.getOrNull "code_snippet") }

def ofValue : Value → Except Fault Issue
  | .dict entries => ofEntries entries
  | _ => .error .noSuchOperation

end Issue

end PhpAudit.Report
