import PhpAudit.Data.Reading

/-!
# Code snippets

Lines of a file around the line that an issue points at. The lines are kept with their numbers, in
the order in which they came; a number stands for one line only.
-/

namespace PhpAudit

open Data

abbrev NumberedLines : Type := List (Int × Value)

/-- Puts a line under a number: in the place of the line that has it, otherwise at the end. -/
def NumberedLines.put (number : Int) (text : Value) : NumberedLines → NumberedLines
  | [] => [(number, text)]
  | (n, old) :: rest =>
    if n = number then (n, text) :: rest else (n, old) :: NumberedLines.put number text rest

/-- Lines of a file around one line. -/
structure Snippet where
  file : Value
  targetLine : Value
  lines : NumberedLines
  contextLines : Value
deriving BEq, Repr, Inhabited

namespace Snippet

/-- The number of the first line. -/
def startLine? (snippet : Snippet) : Option Int := snippet.lines.head?.map Prod.fst

/-- The number of the last line. -/
def endLine? (snippet : Snippet) : Option Int := snippet.lines.getLast?.map Prod.fst

def toValue (snippet : Snippet) : Value :=
  .record [
    ("file", snippet.file),
    ("target_line", snippet.targetLine),
    ("lines", .dict (snippet.lines.map fun (number, text) => (.int number, text))),
    ("context_lines", snippet.contextLines)]

/-- Numbers the lines of a dictionary by its keys, in order. -/
def readLines (lines : NumberedLines) : Entries → Except Fault NumberedLines
  | [] => .ok lines
  | (key, text) :: rest => do
    let number ← key.toInt
    readLines (lines.put number text) rest

/-- The lines that a value holds, if there are any. -/
def linesOfValue (value : Value) : Except Fault NumberedLines :=
  if !value.isPresent then .ok []
  else match value with
    | .dict entries => readLines [] entries
    | _ => .error .noSuchOperation

/-- The snippet of a record. Every field has a default. -/
def ofEntries (entries : Entries) : Except Fault Snippet := do
  let lines ← linesOfValue (entries.getOrNull "lines")
  return {
    file := (entries.get? "file").getD (.text "")
    targetLine := (entries.get? "target_line").getD (.int 0)
    lines
    contextLines := (entries.get? "context_lines").getD (.int 5) }

def ofValue : Value → Except Fault Snippet
  | .dict entries => ofEntries entries
  | _ => .error .noSuchOperation

end Snippet

end PhpAudit
