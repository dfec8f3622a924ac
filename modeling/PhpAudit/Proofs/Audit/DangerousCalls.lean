import PhpAudit.Audit.DangerousCalls
import PhpAudit.Proofs.Audit.Calls

/-!
# Which dangerous calls are reported

The analysis walks a tree once for each of its functions. `run_reports_dangerous` says that nothing
of this shows: every call of a listed function is reported once, in the order in which the calls
start, and nothing else is. Where the calls start one after the other, one walk would report the
same.
-/

namespace PhpAudit.Audit.DangerousCalls

open Data Report Syntax

/-- Whether a node calls the function of an entry. -/
def isCallOf (entry : String × String) (node : Node) : Bool :=
  node.isKind .functionCall && node.name == some entry.1

/-- A call of a function of the table, by the name that is written at it. -/
def IsDangerous (node : Node) : Prop :=
  node.isKind .functionCall = true ∧ ∃ entry ∈ table, node.name = some entry.1

instance : DecidablePred IsDangerous := fun node =>
  inferInstanceAs (Decidable (node.isKind .functionCall = true ∧
    ∃ entry ∈ table, node.name = some entry.1))

/-- The rank of a call: that of its function in the table. -/
def rank : Node → Nat := rankIn table isCallOf

/-- What an issue tells of a dangerous call: its place, the function and how severe it is. -/
structure Tells (session : Session) (file : String) (node : Node) (issue : Issue) : Prop where
  place : StandsAt session file node issue
  function : ∃ name, node.name = some name ∧
    issue.message = .text ("Dangerous function " ++ name ++ "() called") ∧
    issue.metadata = .record [("function", .text name)]
  severity : issue.severity = .high

/-- What the entries look for. -/
theorem isCallOf_iff {entry : String × String} {node : Node} :
    isCallOf entry node = true ↔ node.isKind .functionCall = true ∧ node.name = some entry.1 := by
  rw [isCallOf, Bool.and_eq_true, beq_iff_eq]

/-- No call is a call of two functions. -/
theorem exclusive_table : Exclusive table isCallOf := by
  have hnodup : (table.map Prod.fst).Nodup := by decide
  refine exclusive_of_nodup hnodup fun a b node ha hb => ?_
  have hname := (isCallOf_iff.mp ha).2
  rw [(isCallOf_iff.mp hb).2] at hname
  exact (Option.some.inj hname).symm

/-- The findings in a file report its dangerous calls. -/
theorem reports_findings (session : Session) (forestOf : String → Forest) (file : String) :
    Reports (forestOf file) IsDangerous rank (Tells session file)
      ((findings forestOf file).map session.issueFor) := by
  have htells : ∀ entry ∈ table, ∀ node, isCallOf entry node = true →
      Tells session file node (session.issueFor (finding file node entry.1 entry.2)) :=
    fun entry _ node hcall =>
      { place := rfl
        function := ⟨entry.1, (isCallOf_iff.mp hcall).2, rfl, rfl⟩
        severity := rfl }
  have hreports := reports_inOrder (forestOf file) exclusive_table (fun _ => true)
    (fun found => session.issueFor (finding file found.1 found.2.1 found.2.2)) htells
  rw [List.filter_true] at hreports
  rw [findings, List.map_map]
  refine hreports.congr fun node => ?_
  simp only [isCallOf_iff, IsDangerous, and_true]
  constructor
  · rintro ⟨entry, hentry, hkind, hname⟩
    exact ⟨hkind, entry, hentry, hname⟩
  · rintro ⟨hkind, entry, hentry, hname⟩
    exact ⟨entry, hentry, hkind, hname⟩

/-- All findings are severe. -/
theorem severe_findings (forestOf : String → Forest) (file : String) :
    ∀ finding ∈ findings forestOf file, Analyzer.failureLevel ≤ finding.severity.level := by
  intro _ hfinding
  obtain ⟨_, -, rfl⟩ := List.mem_map.mp hfinding
  exact Nat.le_refl _

/-- **Every dangerous call is reported, and nothing else.** The issues are those of the files, one
file after the other, and the run fails exactly when there are any. -/
theorem run_reports_dangerous (forestOf : String → Forest) (session : Session) :
    ∃ (result : Result) (issuesOf : String → List Issue),
      (analyzer forestOf).run session = .finished result ∧
        result.issues = session.sources.flatMap issuesOf ∧
        (∀ file, Reports (forestOf file) IsDangerous rank (Tells session file) (issuesOf file)) ∧
        (∀ file, ((walk (forestOf file)).filter IsDangerous).Pairwise
            (fun a b => position a < position b) →
          List.Forall₂ (Tells session file) ((walk (forestOf file)).filter IsDangerous)
            (issuesOf file)) ∧
        FailsOnIssues "dangerous function call(s)" result := by
  have hreports := reports_findings session forestOf
  obtain ⟨hissues, hfails⟩ := resultFor_failsOnIssues description session
    "dangerous function call(s)" "No dangerous function calls found"
    (severe_issuesInAll session (severe_findings forestOf))
  exact ⟨result forestOf session, fun file => (findings forestOf file).map session.issueFor, rfl,
    hissues, hreports, fun file => (hreports file).forall₂_filter, hfails⟩

end PhpAudit.Audit.DangerousCalls
