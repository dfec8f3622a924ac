import PhpAudit.Audit.RawQueries
import PhpAudit.Proofs.Audit.Calls
import PhpAudit.Proofs.Syntax.Query

/-!
# Which raw queries are reported

The analysis seeks ten kinds of calls that take a query as raw text, and keeps those whose arguments
are put together from values. `run_reports_unsafe` says what that comes to for every tree: a call is
reported once if it `TakesRawText` and what it takes `IsPutTogether`, and no other node is. Calls in
the arguments of other calls are reported beside these, and chained calls, which start at one place,
by their rank.
-/

namespace PhpAudit.Audit.RawQueries

open Data Report Syntax

/-! ## Calls that take raw text -/

/-- Whether a node is a call of an entry. -/
def RawCall.isCallOf : RawCall → Node → Bool
  | .onType type method, node =>
    node.isKind .staticCall && node.name == some method && node.owner == some type
  | .onValue method, node => node.isKind .methodCall && node.name == some method

/-- A call that takes a query as raw text: on the type `DB`, or on any value by the name of a method
that only builders of queries have. -/
def TakesRawText (node : Node) : Prop :=
  (node.isKind .staticCall = true ∧ node.owner = some "DB" ∧
    ∃ method ∈ ["raw", "select", "statement", "unprepared"], node.name = some method) ∨
  (node.isKind .methodCall = true ∧
    ∃ method ∈ ["whereRaw", "orWhereRaw", "selectRaw", "orderByRaw", "havingRaw", "groupByRaw"],
      node.name = some method)

/-- The entries of the table are for the calls that take raw text. -/
theorem takesRawText_iff (node : Node) :
    TakesRawText node ↔ ∃ raw ∈ table, raw.isCallOf node = true := by
  simp only [TakesRawText, table, List.mem_append, List.mem_map, or_and_right, exists_or]
  refine or_congr ⟨?_, ?_⟩ ⟨?_, ?_⟩
  · rintro ⟨hkind, howner, method, hmethod, hname⟩
    exact ⟨.onType "DB" method, ⟨method, hmethod, rfl⟩, by simp [RawCall.isCallOf, *]⟩
  · rintro ⟨_, ⟨method, hmethod, rfl⟩, hcall⟩
    simp only [RawCall.isCallOf, Bool.and_eq_true, beq_iff_eq] at hcall
    exact ⟨hcall.1.1, hcall.2, method, hmethod, hcall.1.2⟩
  · rintro ⟨hkind, method, hmethod, hname⟩
    exact ⟨.onValue method, ⟨method, hmethod, rfl⟩, by simp [RawCall.isCallOf, *]⟩
  · rintro ⟨_, ⟨method, hmethod, rfl⟩, hcall⟩
    simp only [RawCall.isCallOf, Bool.and_eq_true, beq_iff_eq] at hcall
    exact ⟨hcall.1, method, hmethod, hcall.2⟩

/-- A call of a type is not one of a value. -/
private theorem staticCall_ne_methodCall {node : Node} (hstatic : node.isKind .staticCall = true)
    (hmethod : node.isKind .methodCall = true) : False := by
  rw [Node.isKind, beq_iff_eq] at hstatic hmethod
  rw [hstatic] at hmethod
  exact absurd hmethod (by decide)

/-- A node tells which entry it is a call of. -/
theorem RawCall.eq_of_isCallOf {a b : RawCall} {node : Node} (ha : a.isCallOf node = true)
    (hb : b.isCallOf node = true) : a = b := by
  cases a <;> cases b <;>
    simp only [RawCall.isCallOf, Bool.and_eq_true, beq_iff_eq] at ha hb
  · rw [ha.1.2, ha.2] at hb
    rw [Option.some.inj hb.1.2, Option.some.inj hb.2]
  · exact (staticCall_ne_methodCall ha.1.1 hb.1).elim
  · exact (staticCall_ne_methodCall hb.1.1 ha.1).elim
  · rw [ha.2] at hb
    rw [Option.some.inj hb.2]

/-- No node is a call of two entries. -/
theorem exclusive_table : Exclusive table RawCall.isCallOf := by
  have hnodup : (table.map id).Nodup := by decide
  exact exclusive_of_nodup hnodup fun _ _ _ => RawCall.eq_of_isCallOf

/-! ## Arguments that are put together -/

/-- A node that puts a text together, or looks like it: a concatenation, an interpolated string, or
a plain one that mentions a variable. -/
def PutsTogether (node : Node) : Prop :=
  node.isKind .concat = true ∨ node.isKind .interpolatedString = true ∨
    node.isKind .string = true ∧
      ∃ value, node.value = some value ∧ Subject.MentionsVariable value.toList

/-- A call whose arguments, the first child of their kind, hold a node that puts a text together. -/
def IsPutTogether (call : Node) : Prop :=
  ∃ before arguments after, call.children = before ++ arguments :: after ∧
    (∀ child ∈ before, child.kind ≠ "arguments") ∧ arguments.kind = "arguments" ∧
      ∃ inner ∈ arguments.listing, PutsTogether inner

/-- What the search below the arguments finds. -/
theorem searchBelow_iff (arguments : Node) :
    (Subject.tree arguments).hasConcatenation = true ∨
        (Subject.tree arguments).hasInterpolation = true ↔
      ∃ inner ∈ arguments.listing, PutsTogether inner := by
  rw [Subject.tree, Subject.hasConcatenation_forest, Subject.hasInterpolation_forest,
    walk_singleton, ← exists_or]
  simp only [PutsTogether, and_or_left]

/-- A call is kept when its arguments are put together. -/
theorem isUnsafe_iff (call : Node) : isUnsafe call = true ↔ IsPutTogether call := by
  have hfirst : isUnsafe call = true ↔
      ∃ arguments, call.childOfKind? argumentsKind = some arguments ∧
        ∃ inner ∈ arguments.listing, PutsTogether inner := by
    rw [isUnsafe]
    cases call.childOfKind? argumentsKind with
    | none => simp
    | some arguments => simp [searchBelow_iff]
  rw [hfirst]
  constructor
  · rintro ⟨arguments, hfound, hinner⟩
    obtain ⟨before, after, hchildren, hbefore, hkind⟩ := Node.childOfKind?_eq_some.mp hfound
    exact ⟨before, arguments, after, hchildren, hbefore, hkind, hinner⟩
  · rintro ⟨before, arguments, after, hchildren, hbefore, hkind, hinner⟩
    exact ⟨arguments, Node.childOfKind?_eq_some.mpr ⟨before, after, hchildren, hbefore, hkind⟩,
      hinner⟩

/-! ## The report -/

/-- A call that is to be reported: it takes raw text that is put together from values. -/
def IsWanted (node : Node) : Prop := TakesRawText node ∧ IsPutTogether node

/-- The rank of a call: that of its entry in the table. -/
def rank : Node → Nat := rankIn table RawCall.isCallOf

/-- What an issue tells of a raw query: its place, the call and how severe it is. -/
structure Tells (session : Session) (file : String) (node : Node) (issue : Issue) : Prop where
  place : StandsAt session file node issue
  call : ∃ raw ∈ table, raw.isCallOf node = true ∧
    issue.message = .text ("Raw SQL in " ++ raw.label ++ " is built from dynamic strings") ∧
    issue.metadata = .record [("call", .text raw.label)]
  severity : issue.severity = .critical

/-- The nodes of an entry are those that the walk has of it. -/
theorem nodes_eq_filter (raw : RawCall) (forest : Forest) :
    raw.nodes forest = (walk forest).filter raw.isCallOf := by
  cases raw <;> rfl

/-- The findings in a file report its raw queries. -/
theorem reports_findings (session : Session) (forestOf : String → Forest) (file : String) :
    Reports (forestOf file) IsWanted rank (Tells session file)
      ((findings forestOf file).map session.issueFor) := by
  have htells : ∀ raw ∈ table, ∀ node, raw.isCallOf node = true →
      Tells session file node (session.issueFor (finding file node raw)) :=
    fun raw hraw _ hcall =>
      { place := rfl
        call := ⟨raw, hraw, hcall, rfl, rfl⟩
        severity := rfl }
  have hreports := reports_inOrder (forestOf file) exclusive_table isUnsafe
    (fun found => session.issueFor (finding file found.1 found.2)) htells
  rw [findings, List.map_map, calls]
  simp only [nodes_eq_filter]
  refine hreports.congr fun node => ?_
  rw [IsWanted, takesRawText_iff, isUnsafe_iff]

/-- All findings are severe. -/
theorem severe_findings (forestOf : String → Forest) (file : String) :
    ∀ finding ∈ findings forestOf file, Analyzer.failureLevel ≤ finding.severity.level := by
  intro _ hfinding
  obtain ⟨_, -, rfl⟩ := List.mem_map.mp hfinding
  show Severity.high.level ≤ Severity.critical.level
  decide

/-- **Every raw query that is put together is reported, and nothing else.** The issues are those of
the files, one file after the other, and the run fails exactly when there are any. -/
theorem run_reports_unsafe (forestOf : String → Forest) (session : Session) :
    ∃ (result : Result) (issuesOf : String → List Issue),
      (analyzer forestOf).run session = .finished result ∧
        result.issues = session.sources.flatMap issuesOf ∧
        (∀ file, Reports (forestOf file) IsWanted rank (Tells session file) (issuesOf file)) ∧
        FailsOnIssues "potential SQL injection(s) in raw queries" result := by
  obtain ⟨hissues, hfails⟩ := resultFor_failsOnIssues description session
    "potential SQL injection(s) in raw queries" "No unsafe raw queries found"
    (severe_issuesInAll session (severe_findings forestOf))
  exact ⟨result forestOf session, fun file => (findings forestOf file).map session.issueFor, rfl,
    hissues, reports_findings session forestOf, hfails⟩

end PhpAudit.Audit.RawQueries
