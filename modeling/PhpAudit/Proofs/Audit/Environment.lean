import PhpAudit.Proofs.Audit.History
import PhpAudit.Proofs.Text.LetterCase

/-!
# Environments in capitals and in small letters

Whether an analyzer runs in an environment is decided in two steps. The name of the environment is
looked up among the names that the deployment uses, exactly as it is written, and what it stands for
is compared with the names that the analyzer knows, whatever the case of their letters. So the case
of letters may decide whether a name is found, and nothing else: `runs_alike_iff` says that two ways
to write a name make no difference to any analyzer exactly when they are named alike.
-/

namespace PhpAudit

open Text (SameLetters lower)

namespace Settings

/-- The standard name that is given for an environment, if there is one. -/
def standardName? (settings : Settings) (environment : String) : Option String :=
  (settings.environmentNames.find? fun entry => entry.1 == environment).map Prod.snd

/-- Two environments are named alike, up to letter case: neither has a standard name, or both have the
same one, or one of them has, and that is its own name. -/
def NamedAlike (settings : Settings) (first second : String) : Prop :=
  match settings.standardName? first, settings.standardName? second with
  | none, none => True
  | some standard, none => lower standard = lower first
  | none, some standard => lower standard = lower second
  | some standard, some other => lower standard = lower other

theorem resolvedEnvironment_eq (settings : Settings) (environment : String) :
    { settings with environment }.resolvedEnvironment =
      (settings.standardName? environment).getD environment := by
  rw [resolvedEnvironment, standardName?]
  cases settings.environmentNames.find? fun entry => entry.1 == environment with
  | none => rfl
  | some entry => rfl

/-- Of names that differ in the case of their letters only, those that are named alike come to the
same name up to letter case. -/
theorem lower_resolvedEnvironment_iff (settings : Settings) {first second : String}
    (h : SameLetters first second) :
    lower { settings with environment := first }.resolvedEnvironment =
      lower { settings with environment := second }.resolvedEnvironment ↔
      settings.NamedAlike first second := by
  have hlower := Text.lower_eq_of_sameLetters h
  rw [resolvedEnvironment_eq, resolvedEnvironment_eq, NamedAlike]
  cases settings.standardName? first with
  | none =>
    cases settings.standardName? second with
    | none => exact iff_of_true hlower trivial
    | some standard => rw [Option.getD_none, Option.getD_some, hlower, eq_comm]
  | some standard =>
    cases settings.standardName? second with
    | none => rw [Option.getD_none, Option.getD_some, hlower]
    | some other => exact Iff.rfl

end Settings

namespace Audit

/-- Whether the analysis of a run starts, that is, whether the session remembers its start. -/
def Analyzer.starts (analyzer : Analyzer) (session : Session) : Bool :=
  (analyzer.analyze session).2.startTime.isSome

/-- The analysis starts in the environments that the analyzer is meant for. -/
theorem Analyzer.starts_eq (analyzer : Analyzer) (session : Session) :
    analyzer.starts session = analyzer.isRelevant session.settings := by
  rw [starts, analyze]
  split
  next hrelevant => exact hrelevant.symm
  next hskipped => exact (eq_false_of_ne_true hskipped).symm

/-- An analyzer only asks for the name that an environment comes to, up to letter case. -/
theorem Analyzer.isRelevant_congr (analyzer : Analyzer) {settings other : Settings}
    (h : lower settings.resolvedEnvironment = lower other.resolvedEnvironment) :
    analyzer.isRelevant settings = analyzer.isRelevant other := by
  rw [isRelevant, isRelevant, h]

namespace Session

/-- **Letter case decides nothing but what a name stands for.** Two names of environments that
differ in the case of their letters only make no difference to any analyzer, neither to whether it
is meant for the environment nor to whether its analysis starts, exactly when they are named
alike. -/
theorem runs_alike_iff (session : Session) {first second : String}
    (h : SameLetters first second) :
    (∀ analyzer : Analyzer,
      analyzer.isRelevant (session.entering first).settings =
        analyzer.isRelevant (session.entering second).settings ∧
      analyzer.starts (session.entering first) = analyzer.starts (session.entering second)) ↔
      session.settings.NamedAlike first second := by
  rw [← session.settings.lower_resolvedEnvironment_iff h]
  constructor
  · intro halike
    -- an analyzer that is meant for the first environment only
    let analyzer : Analyzer := {
      description := .error .wrongShape
      environments := some [(session.entering first).settings.resolvedEnvironment]
      run := fun _ => .interrupted "" }
    have hrelevant : analyzer.isRelevant (session.entering first).settings = true := by
      rw [Analyzer.isRelevant_iff]
      rintro _ ⟨⟩
      exact ⟨_, List.mem_singleton.mpr rfl, rfl⟩
    rw [(halike analyzer).1, Analyzer.isRelevant_iff] at hrelevant
    obtain ⟨name, hname, hlower⟩ := hrelevant _ rfl
    rw [List.mem_singleton.mp hname] at hlower
    exact hlower.symm
  · intro hlower analyzer
    have hrelevant : analyzer.isRelevant (session.entering first).settings =
        analyzer.isRelevant (session.entering second).settings := analyzer.isRelevant_congr hlower
    refine ⟨hrelevant, ?_⟩
    rw [Analyzer.starts_eq, Analyzer.starts_eq, hrelevant]

/-- A session whose deployment writes the name of production in two ways. -/
def twiceNamedSession : Session where
  settings := { environmentNames := [("production-us", "Production"), ("PRODUCTION-US", "production")] }

/-- With a standard name for both ways of writing it, the environment is production in both. -/
theorem runs_alike_twiceNamed :
    SameLetters "production-us" "PRODUCTION-US" ∧
      twiceNamedSession.settings.NamedAlike "production-us" "PRODUCTION-US" ∧
      productionAnalyzer.starts (twiceNamedSession.entering "production-us") = true ∧
      productionAnalyzer.starts (twiceNamedSession.entering "PRODUCTION-US") = true := by
  have hletters : SameLetters "production-us" "PRODUCTION-US" := by decide
  have hnamed : twiceNamedSession.settings.NamedAlike "production-us" "PRODUCTION-US" := by
    show lower "Production" = lower "production"
    decide
  have hstarts : productionAnalyzer.starts (twiceNamedSession.entering "production-us") = true := by
    decide
  have halike := (runs_alike_iff twiceNamedSession hletters).mpr hnamed productionAnalyzer
  exact ⟨hletters, hnamed, hstarts, halike.2 ▸ hstarts⟩

/-- A session whose deployment has a standard name for one way of writing an environment. -/
def onceNamedSession : Session where
  settings := { environmentNames := [("production-us", "production")] }

/-- Written in capitals, the environment has no standard name, and the analyzer is skipped. -/
theorem not_runs_alike_onceNamed :
    SameLetters "production-us" "PRODUCTION-US" ∧
      productionAnalyzer.isRelevant (onceNamedSession.entering "production-us").settings = true ∧
      productionAnalyzer.isRelevant (onceNamedSession.entering "PRODUCTION-US").settings = false ∧
      productionAnalyzer.starts (onceNamedSession.entering "production-us") = true ∧
      productionAnalyzer.starts (onceNamedSession.entering "PRODUCTION-US") = false := by
  decide

end Session

end Audit

end PhpAudit
