import PhpAudit.Report.Result

/-!
# Collections of results

Results in the order in which the analyzers produced them, and the figures that sum them up.
-/

namespace PhpAudit.Report

open PhpAudit.Data PhpAudit.Number

/-- Results, oldest first. -/
structure Collection where
  results : List Result := []
deriving BEq, Repr, Inhabited

namespace Collection

/-- The collection with one more result. -/
def add (collection : Collection) (result : Result) : Collection :=
  ⟨collection.results ++ [result]⟩

/-- The number of results. -/
def size (collection : Collection) : Nat := collection.results.length

def byStatus (collection : Collection) (status : Status) : List Result :=
  collection.results.filter fun result => result.status == status

/-- The number of results of one status. -/
def count (collection : Collection) (status : Status) : Nat := (collection.byStatus status).length

/-- The number of results that leave nothing to do. -/
def successes (collection : Collection) : Nat := collection.count .passed + collection.count .skipped

/-- The share of `part` in `whole` in percent, rounded to so many places; all of nothing. Each of
the three steps rounds to a number of the format. -/
def percentage (places part whole : Nat) : Binary64 :=
  if whole = 0 then .ofInt 100
  else (((Binary64.ofQuotient part whole).mul (.ofInt 100))).roundTo places

/-- The percentage of results that leave nothing to do. -/
def score (collection : Collection) : Binary64 :=
  percentage 2 collection.successes collection.size

/-- The number of issues in all results. -/
def totalIssues (collection : Collection) : Nat :=
  (collection.results.flatMap fun result => result.issues).length

/-- The number that an execution time stands for. -/
def seconds : Value → Except Fault Binary64
  | .number x => .ok x
  | .bool b => .ok (.ofInt (if b then 1 else 0))
  | .int n =>
    let x := Binary64.ofInt n
    if x.isFinite then .ok x else .error .infinityAsInteger
  | _ => .error .wrongShape

/-- A running total of execution times, added up from left to right. -/
def addTimes (total : Binary64) : List Result → Except Fault Binary64
  | [] => .ok total
  | result :: rest => do addTimes (total.add (← seconds result.executionTime)) rest

/-- The total of all execution times. -/
def totalExecutionTime (collection : Collection) : Except Fault Binary64 :=
  addTimes (Binary64.zero false) collection.results

/-- Whether every result leaves nothing to do. -/
def isSuccess (collection : Collection) : Bool := collection.results.all Result.isSuccess

def toValues (collection : Collection) : List Value := collection.results.map Result.toValue

end Collection

end PhpAudit.Report
