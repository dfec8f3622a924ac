import PhpAudit.Data.Reading

/-!
# Severities, categories and statuses

The three fixed vocabularies of a report: how severe an issue is, what an analysis is about, and
how it ended.
-/

namespace PhpAudit.Report

open PhpAudit.Data

/-! ## Colours -/

/-- The colours of a report. -/
inductive Colour where
  | red | orange | yellow | blue | green | gray
deriving DecidableEq, Repr

def Colour.text : Colour → String
  | .red => "red"
  | .orange => "orange"
  | .yellow => "yellow"
  | .blue => "blue"
  | .green => "green"
  | .gray => "gray"

/-- The member of a vocabulary that a value names. -/
def memberOf {α : Type} (all : List α) (text : α → String) (set : String) (value : Value) :
    Except Fault α :=
  match value with
  | .text name =>
    match all.find? fun a => text a == name with
    | some a => .ok a
    | none => .error (.notAMember value set)
  | _ => .error (.notAMember value set)

/-! ## Severities -/

/-- How severe an issue is. -/
inductive Severity where
  | critical | high | medium | low | info
deriving DecidableEq, Repr

namespace Severity

/-- All severities, the worst first. -/
def all : List Severity := [.critical, .high, .medium, .low, .info]

def text : Severity → String
  | .critical => "critical"
  | .high => "high"
  | .medium => "medium"
  | .low => "low"
  | .info => "info"

/-- The rank of a severity; a worse one ranks higher. -/
def level : Severity → Nat
  | .critical => 5
  | .high => 4
  | .medium => 3
  | .low => 2
  | .info => 1

def colour : Severity → Colour
  | .critical => .red
  | .high => .orange
  | .medium => .yellow
  | .low => .blue
  | .info => .gray

def label : Severity → String
  | .critical => "Critical"
  | .high => "High"
  | .medium => "Medium"
  | .low => "Low"
  | .info => "Info"

def description : Severity → String
  | .critical => "Critical security or stability issue requiring immediate attention"
  | .high => "High priority issue that should be addressed soon"
  | .medium => "Medium priority issue that should be considered"
  | .low => "Low priority issue or minor improvement"
  | .info => "Informational message or suggestion"

def ofValue : Value → Except Fault Severity := memberOf all text "Severity"

end Severity

/-! ## Categories -/

/-- What an analysis is about. -/
inductive Category where
  | security | performance | codeQuality | bestPractices | reliability
deriving DecidableEq, Repr

namespace Category

def all : List Category := [.security, .performance, .codeQuality, .bestPractices, .reliability]

/-- The name of a category. -/
def text : Category → String
  | .security => "security"
  | .performance => "performance"
  | .codeQuality => "code_quality"
  | .bestPractices => "best_practices"
  | .reliability => "reliability"

/-- The heading of a category. -/
def label : Category → String
  | .security => "Security"
  | .performance => "Performance"
  | .codeQuality => "Code Quality"
  | .bestPractices => "Best Practices"
  | .reliability => "Reliability"

/-- The sign of a category. -/
def icon : Category → String
  | .security => "🔒"
  | .performance => "⚡"
  | .codeQuality => "📊"
  | .bestPractices => "✨"
  | .reliability => "🛡\uFE0F"

/-- What a category holds. -/
def description : Category → String
  | .security => "Security vulnerabilities and risks"
  | .performance => "Performance issues and optimizations"
  | .codeQuality => "Code quality and maintainability"
  | .bestPractices => "Best practices and conventions"
  | .reliability => "Reliability and stability issues"

/-- The category that a value names. -/
def ofValue : Value → Except Fault Category := memberOf all text "Category"

end Category

/-! ## Statuses -/

/-- How an analysis ended. -/
inductive Status where
  | passed | failed | warning | skipped | error
deriving DecidableEq, Repr

namespace Status

def all : List Status := [.passed, .failed, .warning, .skipped, .error]

/-- The name of a status. -/
def text : Status → String
  | .passed => "passed"
  | .failed => "failed"
  | .warning => "warning"
  | .skipped => "skipped"
  | .error => "error"

/-- Whether a status leaves nothing to do. -/
def isSuccess : Status → Bool
  | .passed => true
  | .skipped => true
  | _ => false

/-- The sign of a status. -/
def emoji : Status → String
  | .passed => "✓"
  | .failed => "✗"
  | .warning => "⚠"
  | .skipped => "⊝"
  | .error => "⚡"

def colour : Status → Colour
  | .passed => .green
  | .failed => .red
  | .warning => .yellow
  | .skipped => .gray
  | .error => .red

/-- The status that a value names. -/
def ofValue : Value → Except Fault Status := memberOf all text "Status"

end Status

end PhpAudit.Report
