import PhpAudit.Audit.Analyzer

/-!
# Histories of an analyzer

An analyzer is run many times, and between its runs time passes, the environment changes and results
are made with its helpers. All it keeps from one step to the next is the time at which the last run
started. `history_steps` says that nothing of it reaches a later run: step by step, every run answers
as `Step` says, which does not look at what was kept.
-/

namespace PhpAudit.Audit

open PhpAudit.Data PhpAudit.Number PhpAudit.Report

/-! ## Steps -/

/-- What can be done with an analyzer. -/
inductive Action where
  /-- It is run. What its analysis comes to, and how long that takes, may differ each time. -/
  | analyze (run : Session → Outcome) (elapsed : Binary64)
  | wait (time : Binary64)
  | enter (environment : String)
  | result (status : Status) (message : Value) (issues : List Issue) (metadata : Value)
  | resultBySeverity (message : Value) (issues : List Issue) (metadata : Value)

inductive Answer where
  | analysis (answer : Except Escape Result)
  | result (answer : Except Fault Result)
  | nothing

/-- A step: what was there before and after, what was done, and what came back. -/
structure Entry where
  before : Session
  action : Action
  answer : Answer
  after : Session

def Session.entering (session : Session) (environment : String) : Session :=
  { session with settings := { session.settings with environment } }

namespace Analyzer

def running (analyzer : Analyzer) (run : Session → Outcome) (elapsed : Binary64) : Analyzer :=
  { analyzer with run, elapsed }

def act (analyzer : Analyzer) (session : Session) : Action → Answer × Session
  | .analyze run elapsed =>
    let (answer, session) := (analyzer.running run elapsed).analyze session
    (.analysis answer, session)
  | .wait time => (.nothing, session.later time)
  | .enter environment => (.nothing, session.entering environment)
  | .result status message issues metadata =>
    (.result (analyzer.result session status message issues metadata), session)
  | .resultBySeverity message issues metadata =>
    (.result (analyzer.resultBySeverity session message issues metadata), session)

def entry (analyzer : Analyzer) (session : Session) (action : Action) : Entry where
  before := session
  action
  answer := (analyzer.act session action).1
  after := (analyzer.act session action).2

/-- The steps that some actions take, one after the other. -/
def history (analyzer : Analyzer) : Session → List Action → List Entry
  | _, [] => []
  | session, action :: actions =>
    let entry := analyzer.entry session action
    entry :: history analyzer entry.after actions

/-- Whether an analyzer is meant for an environment. Upper and lower case do not matter. -/
def IsMeantFor (analyzer : Analyzer) (environment : String) : Prop :=
  ∀ names, analyzer.environments = some names →
    ∃ name ∈ names, Text.lower environment = Text.lower name

def skipped (description : Description) : Result where
  analyzerId := description.id
  status := .skipped
  message := .text "Not applicable in current environment or configuration"
  issues := []
  executionTime := .number (Binary64.zero false)
  metadata := .dict []

/-- What a run answers that failed, with the kind, the message and the trace of the failure. -/
def failure (description : Description) (kind message trace : String) (time : Binary64) :
    Result where
  analyzerId := description.id
  status := .error
  message := .text ("Analysis failed: " ++ message)
  issues := []
  executionTime := .number time
  metadata := .record [("exception", .text kind), ("trace", .text trace)]

/-- What a run answers whose analysis has come to something, after some time. -/
inductive Concludes (description : Description) (time : Binary64) :
    Outcome → Except Escape Result → Prop where
  | finished (result : Result) :
      Concludes description time (.finished result) (.ok { result with executionTime := .number time })
  | failed (kind message trace : String) :
      Concludes description time (.failed kind message trace)
        (.ok (failure description kind message trace time))
  | interrupted (kind : String) :
      Concludes description time (.interrupted kind) (.error (.interruption kind))

/-- What a step does. When an earlier run started is nothing that a run asks for; only the helpers
do, for the time that the run they belong to has taken so far. -/
inductive Step (analyzer : Analyzer) (description : Description) : Entry → Prop where
  /-- Nothing happens in an environment that the analyzer is not meant for. -/
  | skipped {before : Session} {run : Session → Outcome} {elapsed : Binary64} :
      ¬ analyzer.IsMeantFor before.settings.resolvedEnvironment →
      Step analyzer description ⟨before, .analyze run elapsed,
        .analysis (.ok (skipped description)), { before with startTime := none }⟩
  /-- Otherwise the analysis runs, and takes the time that goes by on the clock. -/
  | analyzed {before after : Session} {run : Session → Outcome} {elapsed : Binary64}
      {answer : Except Escape Result} :
      analyzer.IsMeantFor before.settings.resolvedEnvironment →
      after = { before with
        clock := before.clock.add elapsed
        startTime := some before.clock } →
      Concludes description ((after.clock.sub before.clock).roundTo 4) (run after) answer →
      Step analyzer description ⟨before, .analyze run elapsed, .analysis answer, after⟩
  | waited {before : Session} {time : Binary64} :
      Step analyzer description
        ⟨before, .wait time, .nothing, { before with clock := before.clock.add time }⟩
  | entered {before : Session} {environment : String} :
      Step analyzer description
        ⟨before, .enter environment, .nothing, before.entering environment⟩
  | helped {before : Session} {status : Status} {message : Value} {issues : List Issue}
      {metadata : Value} :
      Step analyzer description ⟨before, .result status message issues metadata,
        .result (.ok (.ofStatus status description.id message issues
          (.number before.executionTime) metadata)), before⟩
  | judged {before : Session} {message : Value} {issues : List Issue} {metadata : Value} :
      Step analyzer description ⟨before, .resultBySeverity message issues metadata,
        .result (.ok (.ofStatus (statusOf issues) description.id message issues
          (.number before.executionTime) metadata)), before⟩

/-- The relevance that is computed is the one that is meant. -/
theorem isRelevant_iff {analyzer : Analyzer} {settings : Settings} :
    analyzer.isRelevant settings = true ↔ analyzer.IsMeantFor settings.resolvedEnvironment := by
  unfold isRelevant IsMeantFor
  cases analyzer.environments with
  | none => simp
  | some names =>
    simp only [List.any_eq_true, beq_iff_eq, Option.some.injEq, forall_eq']

/-- An analyzer that is meant for the environment is started, run and concluded. -/
theorem analyze_of_isMeantFor {analyzer : Analyzer} {session : Session}
    (hmeant : analyzer.IsMeantFor session.settings.resolvedEnvironment) :
    analyzer.analyze session =
      (analyzer.conclude (session.started.later analyzer.elapsed)
        (analyzer.run (session.started.later analyzer.elapsed)),
        session.started.later analyzer.elapsed) := by
  rw [analyze, if_pos (isRelevant_iff.mpr hmeant)]

section Described

variable {analyzer : Analyzer} {description : Description}
  (h : analyzer.description = .ok description)
include h

/-- A result carries the id of the description and the time of the session. -/
theorem result_eq (session : Session) (status : Status) (message : Value) (issues : List Issue)
    (metadata : Value) : analyzer.result session status message issues metadata =
      .ok (.ofStatus status description.id message issues (.number session.executionTime)
        metadata) := by
  rw [result, id, h]
  rfl

/-- An analysis comes to an end in the time since the run started. -/
theorem concludes_conclude {session : Session} {start : Binary64}
    (hstart : session.startTime = some start) (outcome : Outcome) :
    Concludes description ((session.clock.sub start).roundTo 4) outcome
      (analyzer.conclude session outcome) := by
  have htime : session.executionTime = (session.clock.sub start).roundTo 4 := by
    rw [Session.executionTime, hstart]
  cases outcome with
  | finished result =>
    rw [conclude, htime]
    exact .finished result
  | failed kind message trace =>
    rw [conclude, failureResult, result_eq h, htime]
    exact .failed kind message trace
  | interrupted kind => exact .interrupted kind

/-- An analyzer that is not meant for the environment is skipped, and the clock is stopped. -/
theorem analyze_of_not_isMeantFor {session : Session}
    (hmeant : ¬ analyzer.IsMeantFor session.settings.resolvedEnvironment) :
    analyzer.analyze session = (.ok (skipped description), session.stopped) := by
  rw [analyze, if_neg (mt isRelevant_iff.mp hmeant)]
  dsimp only
  rw [result_eq h]
  rfl

omit h in
/-- The entry of an analysis: its answer and the session that it leaves. -/
theorem entry_analyze (session : Session) (run : Session → Outcome) (elapsed : Binary64) :
    analyzer.entry session (.analyze run elapsed) = ⟨session, .analyze run elapsed,
      .analysis ((analyzer.running run elapsed).analyze session).1,
      ((analyzer.running run elapsed).analyze session).2⟩ := rfl

/-- Every action does what a step says. -/
theorem step_entry (session : Session) (action : Action) :
    Step analyzer description (analyzer.entry session action) := by
  cases action with
  | analyze run elapsed =>
    have hrunning : (analyzer.running run elapsed).description = .ok description := h
    rw [entry_analyze]
    by_cases hmeant : (analyzer.running run elapsed).IsMeantFor session.settings.resolvedEnvironment
    · rw [analyze_of_isMeantFor hmeant]
      exact .analyzed hmeant rfl (concludes_conclude hrunning rfl _)
    · rw [analyze_of_not_isMeantFor hrunning hmeant]
      exact .skipped hmeant
  | wait time => exact .waited
  | enter environment => exact .entered
  | result status message issues metadata =>
    unfold entry act
    simp only [result_eq h]
    exact .helped
  | resultBySeverity message issues metadata =>
    unfold entry act resultBySeverity
    simp only [result_eq h]
    exact .judged

end Described

/-! ## Runs of steps -/

/-- Steps that follow one another: each starts where the one before it ended. -/
def Linked : Session → List Entry → Prop
  | _, [] => True
  | session, entry :: entries => entry.before = session ∧ Linked entry.after entries

def analyses (entries : List Entry) : List (Except Escape Result) :=
  entries.filterMap fun entry =>
    match entry.answer with
    | .analysis answer => some answer
    | _ => none

/-- Each entry of a history starts where the entry before it ended. -/
theorem linked_history (analyzer : Analyzer) (session : Session) (actions : List Action) :
    Linked session (analyzer.history session actions) := by
  induction actions generalizing session with
  | nil => trivial
  | cons action actions ih => exact ⟨rfl, ih _⟩

/-- A history has one entry per action, in order. -/
theorem map_action_history (analyzer : Analyzer) (session : Session) (actions : List Action) :
    (analyzer.history session actions).map Entry.action = actions := by
  induction actions generalizing session with
  | nil => rfl
  | cons action actions ih => exact congrArg (action :: ·) (ih _)

/-- Every entry of a history is a step. -/
theorem step_history {analyzer : Analyzer} {description : Description}
    (h : analyzer.description = .ok description) {session : Session} {actions : List Action}
    {entry : Entry} (hentry : entry ∈ analyzer.history session actions) :
    Step analyzer description entry := by
  induction actions generalizing session with
  | nil => cases hentry
  | cons action actions ih =>
    rcases List.mem_cons.mp hentry with rfl | hentry
    · exact step_entry h session action
    · exact ih hentry

/-- A run does not ask when the last one started. -/
theorem analyze_stopped (analyzer : Analyzer) (session : Session) :
    analyzer.analyze session.stopped = analyzer.analyze session := rfl

/-- Sessions that differ in when the last run started go on to such sessions, and runs answer the
same in them. -/
theorem entry_congr (analyzer : Analyzer) {session other : Session}
    (h : other.stopped = session.stopped) (action : Action) :
    analyses [analyzer.entry other action] = analyses [analyzer.entry session action] ∧
      (analyzer.entry other action).after.stopped =
        (analyzer.entry session action).after.stopped := by
  cases action with
  | analyze run elapsed =>
    have hanalyze : (analyzer.running run elapsed).analyze other =
        (analyzer.running run elapsed).analyze session := by
      rw [← analyze_stopped, h, analyze_stopped]
    rw [entry_analyze, entry_analyze, hanalyze]
    exact ⟨rfl, rfl⟩
  | wait time => exact ⟨rfl, congrArg (fun s : Session => s.later time) h⟩
  | enter environment => exact ⟨rfl, congrArg (fun s : Session => s.entering environment) h⟩
  | result => exact ⟨rfl, h⟩
  | resultBySeverity => exact ⟨rfl, h⟩

/-- The analyses of a history start with that of its first entry, if it is one. -/
theorem analyses_cons (entry : Entry) (entries : List Entry) :
    analyses (entry :: entries) = analyses [entry] ++ analyses entries := by
  unfold analyses
  rw [← List.singleton_append, List.filterMap_append]

/-- The analyses of a history do not depend on whether the clock was running. -/
theorem analyses_history_congr (analyzer : Analyzer) {session other : Session}
    (h : other.stopped = session.stopped) (actions : List Action) :
    analyses (analyzer.history other actions) = analyses (analyzer.history session actions) := by
  -- the sessions go on to differ in nothing else than when the last run started
  induction actions generalizing session other with
  | nil => rfl
  | cons action actions ih =>
    obtain ⟨hanswer, hafter⟩ := entry_congr analyzer h action
    unfold history
    rw [analyses_cons, analyses_cons (analyzer.entry session action), hanswer, ih hafter]

/-- **Runs do not reach one another.** Whatever is done with an analyzer, in whatever order, every
step does what `Step` says, in the session that the step before it left behind; and if the last run
before all of them had started at another time, or not at all, every run would answer the same. -/
theorem history_steps (analyzer : Analyzer) {description : Description}
    (h : analyzer.description = .ok description) (session : Session) (actions : List Action) :
    (analyzer.history session actions).map Entry.action = actions ∧
    Linked session (analyzer.history session actions) ∧
    (∀ entry ∈ analyzer.history session actions, Step analyzer description entry) ∧
    ∀ other : Session, other.stopped = session.stopped →
      analyses (analyzer.history other actions) = analyses (analyzer.history session actions) :=
  ⟨map_action_history analyzer session actions, linked_history analyzer session actions,
    fun _ => step_history h, fun _ hother => analyses_history_congr analyzer hother actions⟩

end Analyzer

/-- What an analyzer says about itself that is meant for production. -/
def productionDescription : Description where
  id := .text "production"
  name := .text "Production"
  description := .text "Looks at production only"
  category := .security
  severity := .high

def productionAnalyzer : Analyzer where
  description := .ok productionDescription
  environments := some ["Production"]
  run := fun _ => .interrupted "KeyboardInterrupt"

def plainResult : Result where
  analyzerId := .text "other"
  status := .passed
  message := .text "All good"

/-- Runs that fail, are skipped, are interrupted and succeed, and half a second that is waited. -/
def mixedActions : List Action :=
  [.analyze (fun _ => .failed "ValueError" "boom" "in run_analysis") (.ofQuotient 1 2),
    .wait (.ofQuotient 1 2),
    .enter "local",
    .analyze (fun _ => .finished plainResult) (.ofInt 1),
    .enter "production",
    .analyze (fun _ => .interrupted "KeyboardInterrupt") (.ofInt 1),
    .analyze (fun _ => .finished plainResult) (.ofQuotient 1 4)]

/-- How a run ended and how long it took, if there is a result. -/
def outcomeOf (answer : Except Escape Result) : Option (Status × Option Binary64) :=
  answer.toOption.map fun result =>
    match result.executionTime with
    | .number time => (result.status, some time)
    | _ => (result.status, none)

/-- Seven seconds that an earlier run has left behind reach none of the runs. -/
theorem history_steps_mixed : productionAnalyzer.description = .ok productionDescription ∧
    (Analyzer.analyses (productionAnalyzer.history
      { settings := {}, startTime := some (.ofInt 7) } mixedActions)).map outcomeOf =
      [some (.error, some (.ofQuotient 1 2)), some (.skipped, some (Binary64.zero false)), none,
        some (.passed, some (.ofQuotient 1 4))] := by
  refine ⟨rfl, ?_⟩
  have hsteps := Analyzer.history_steps productionAnalyzer rfl { settings := {} } mixedActions
  rw [hsteps.2.2.2 { settings := {}, startTime := some (.ofInt 7) } rfl]
  decide +kernel

end PhpAudit.Audit
