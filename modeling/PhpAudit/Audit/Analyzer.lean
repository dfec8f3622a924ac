import PhpAudit.Audit.Session
import PhpAudit.Report.Description
import PhpAudit.Report.Result
import PhpAudit.Text.Lowercase

/-!
# Analyzers

An analyzer describes itself, may be meant for some environments only, and has an analysis to run.
Running it always ends in a result: a failure of the analysis becomes one, and only an interruption
gets through. What can fail beside the analysis is the description, which every result needs.
-/

namespace PhpAudit.Audit

open Data Number Report

/-- How an analysis ends. -/
inductive Outcome where
  | finished (result : Result)
  /-- It failed, with a kind of failure, a message and the trace of the calls that led there. -/
  | failed (kind message trace : String)
  /-- Something stopped the program. -/
  | interrupted (kind : String)
deriving Repr

/-- An analysis that may run into a fault has failed then, with the trace that the fault leaves. -/
def Outcome.ofExcept (trace : String) : Except Fault Result → Outcome
  | .ok result => .finished result
  | .error fault => .failed fault.kind (fault.message?.getD "") trace

/-- Why running an analyzer gives no result. -/
inductive Escape where
  | fault (fault : Fault)
  | interruption (kind : String)
deriving Repr

structure Analyzer where
  /-- What it says about itself. -/
  description : Except Fault Description
  /-- The environments that it is meant for; without a list, all of them. -/
  environments : Option (List String) := none
  /-- How long its analysis takes. -/
  elapsed : Binary64 := Binary64.zero false
  /-- Its analysis. -/
  run : Session → Outcome

namespace Analyzer

/-- What is said of a run that is skipped. -/
def skipReason : String := "Not applicable in current environment or configuration"

/-- Whether an analyzer is part of automatic runs. -/
def runsInCi : Bool := true

/-- Whether the environment is one that the analyzer is meant for, whatever the case of its
letters. -/
def isRelevant (analyzer : Analyzer) (settings : Settings) : Bool :=
  match analyzer.environments with
  | none => true
  | some environments =>
    environments.any fun name => Text.lower settings.resolvedEnvironment == Text.lower name

def id (analyzer : Analyzer) : Except Fault Value := analyzer.description.map (·.id)

/-! ## Results -/

/-- A result of the analyzer, with the time that its run has taken so far. -/
def result (analyzer : Analyzer) (session : Session) (status : Status) (message : Value)
    (issues : List Issue) (metadata : Value) : Except Fault Result :=
  analyzer.id.map fun id =>
    Result.ofStatus status id message issues (.number session.executionTime) metadata

/-- The least severity of an issue that makes a run fail. -/
def failureLevel : Nat := Severity.high.level

/-- The status of a run that found some issues. -/
def statusOf (issues : List Issue) : Status :=
  if issues.isEmpty then .passed
  else if issues.any fun issue => failureLevel ≤ issue.severity.level then .failed
  else .warning

/-- A result with the status that its issues call for. -/
def resultBySeverity (analyzer : Analyzer) (session : Session) (message : Value)
    (issues : List Issue) (metadata : Value) : Except Fault Result :=
  analyzer.result session (statusOf issues) message issues metadata

def failureResult (analyzer : Analyzer) (session : Session) (kind message trace : String) :
    Except Fault Result :=
  analyzer.result session .error (.text ("Analysis failed: " ++ message)) []
    (.record [("exception", .text kind), ("trace", .text trace)])

/-! ## Running -/

/-- What a run of the analysis comes to, in the session as it is when the analysis ends. -/
def conclude (analyzer : Analyzer) (session : Session) : Outcome → Except Escape Result
  | .finished result => .ok (result.withExecutionTime (.number session.executionTime))
  | .failed kind message trace =>
    (analyzer.failureResult session kind message trace).mapError .fault
  | .interrupted kind => .error (.interruption kind)

/-- Runs the analyzer: its result, and the session afterwards. -/
def analyze (analyzer : Analyzer) (session : Session) : Except Escape Result × Session :=
  if analyzer.isRelevant session.settings then
    let session := session.started.later analyzer.elapsed
    (analyzer.conclude session (analyzer.run session), session)
  else
    let session := session.stopped
    ((analyzer.result session .skipped (.text skipReason) [] .null).mapError .fault, session)

end Analyzer

/-! ## Findings -/

/-- What an analysis finds in a file. -/
structure Finding where
  message : Value
  /-- The file, as the analysis came to it. -/
  file : String
  line : Option Int
  severity : Severity
  recommendation : Value
  column : Value := .null
  /-- How many lines are shown on either side; without a number, as many as the settings say. -/
  radius : Option Int := none
  code : Value := .null
  metadata : Value := .null
deriving Repr

/-- The issue for a finding: its place is seen from the directory that holds the files. -/
def Session.issueFor (session : Session) (finding : Finding) : Issue where
  message := finding.message
  location := some {
    file := .text (session.relativePath finding.file)
    line := match finding.line with
      | some line => .int line
      | none => .null
    column := finding.column }
  severity := finding.severity
  recommendation := finding.recommendation
  code := finding.code
  metadata := finding.metadata.orElse (.dict [])
  snippet := session.snippet? finding.file finding.line finding.radius

end PhpAudit.Audit
