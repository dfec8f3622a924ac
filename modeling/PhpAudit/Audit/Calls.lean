import PhpAudit.Audit.Analyzer
import PhpAudit.Syntax.Query

/-!
# Searching files for calls

Analyses that look for calls in the syntax of each file and report them in the order in which they
stand there. Calls at one place keep the order in which they were found.
-/

namespace PhpAudit.Audit

open Data Report Syntax

/-- Whether a node does not start behind another one. -/
def startsBy (a b : Node) : Bool :=
  a.startLine < b.startLine || (a.startLine == b.startLine && a.startColumn ≤ b.startColumn)

/-- Finds with their nodes, in the order of their places. -/
def inOrder {α : Type} (finds : List (Node × α)) : List (Node × α) :=
  finds.mergeSort fun a b => startsBy a.1 b.1

/-- The issues that an analysis finds in all files. -/
def issuesInAll (session : Session) (findings : String → List Finding) : List Issue :=
  session.sources.flatMap fun file => (findings file).map session.issueFor

/-- A message that counts issues, or another one when there are none. -/
def countMessage (issues : List Issue) (found none : String) : Value :=
  if issues.isEmpty then .text none
  else .text ("Found " ++ Number.Integer.text issues.length ++ " " ++ found)

/-- The result of an analysis that found some issues, with the status that they call for. -/
def resultFor (description : Description) (session : Session) (message : Value)
    (issues : List Issue) : Result :=
  Result.ofStatus (Analyzer.statusOf issues) description.id message issues
    (.number session.executionTime) .null

end PhpAudit.Audit
