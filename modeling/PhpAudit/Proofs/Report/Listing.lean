import PhpAudit.Proofs.Report.Agreement

/-!
# Nothing is left out of a report

A report lists the results that ask for attention, failures first, then warnings, then errors, and
successes only on request. Each is listed once with all of its issues, and what is not listed has
none, so that the entries account for the number of issues that is printed at the top
(`Collection.lists_everything`). A brief report is a full one with lines left out: the outlines of
the two have the same entries as far as the brief one goes, and an entry only gains code.
-/

namespace PhpAudit.Report

open Data Number

/-! ## What is listed -/

/-- Results as they are made, timed afterwards or not. -/
inductive Result.IsBuilt : Result → Prop where
  | ofStatus (status : Status) (analyzerId message : Value) (issues : List Issue)
    (time metadata : Value) :
    IsBuilt (.ofStatus status analyzerId message issues time metadata)
  | timed {result : Result} (h : IsBuilt result) (time : Value) :
    IsBuilt (result.withExecutionTime time)

/-- Only failures and warnings have issues. -/
theorem Result.IsBuilt.issues_eq_nil {result : Result} (h : result.IsBuilt)
    (hfailed : result.status ≠ .failed) (hwarning : result.status ≠ .warning) :
    result.issues = [] := by
  induction h with
  | ofStatus status =>
    cases status with
    | failed => exact absurd rfl hfailed
    | warning => exact absurd rfl hwarning
    | _ => rfl
  | timed _ _ ih => exact ih hfailed hwarning

namespace Collection

variable {collection : Collection} {verbose : Bool}

/-- What is not listed has no issues, so the issues of what is listed are all there are. -/
theorem sum_issues_listed (hbuilt : ∀ result ∈ collection.results, result.IsBuilt) :
    ((collection.listed verbose).map fun result => result.issues.length).sum =
      collection.totalIssues := by
  have hnone (status : Status) (hfailed : status ≠ .failed) (hwarning : status ≠ .warning) :
      ((collection.byStatus status).map fun result => result.issues.length).sum = 0 := by
    refine List.sum_eq_zero fun n hn => ?_
    obtain ⟨result, hresult, rfl⟩ := List.mem_map.mp hn
    obtain ⟨hmem, hstatus⟩ := List.mem_filter.mp hresult
    rw [beq_iff_eq] at hstatus
    subst hstatus
    rw [(hbuilt result hmem).issues_eq_nil hfailed hwarning, List.length_nil]
  have hpassed := hnone .passed (by decide) (by decide)
  have hskipped := hnone .skipped (by decide) (by decide)
  have hall := (collection.perm_flatMap_byStatus.map fun result => result.issues.length).sum_eq
  rw [totalIssues, List.length_flatMap, ← hall]
  cases verbose <;> simp [Status.all, listed, hpassed, hskipped]

end Collection

/-! ## Brief reports and full ones -/

/-- A place is shown in one way. -/
theorem place_unique {location : Option Location} {place other : Option String}
    (hplace : Option.Rel Location.ShownAs location place)
    (hother : Option.Rel Location.ShownAs location other) : place = other := by
  cases hplace with
  | none =>
    cases hother
    rfl
  | some hplace =>
    cases hother with
    | some hother =>
      rw [← Location.text_eq_ok_iff] at hplace hother
      rw [hplace, Except.ok.injEq] at hother
      rw [hother]

/-- A full report adds nothing to an issue but its code. -/
theorem Issue.ListedAs.sublist {issue : Issue} {brief full : IssueEntry}
    (hbrief : issue.ListedAs false brief) (hfull : issue.ListedAs true full) :
    brief.items.Sublist full.items := by
  obtain ⟨_, place, _, _, code⟩ := brief
  obtain ⟨_, other, _, _, more⟩ := full
  obtain ⟨hmessage, hplace, rfl, hrecommendation, hcode⟩ := hbrief
  obtain ⟨hsame, hother, hseverity, hadvice, -⟩ := hfull
  cases hmessage.symm.trans hsame
  cases hrecommendation.symm.trans hadvice
  cases place_unique hplace hother
  cases hseverity
  cases hcode
  exact (List.Sublist.refl _).append (List.nil_sublist _)

/-- A full report adds nothing to a result but the code of its issues. -/
theorem Result.ListedAs.sublist {result : Result} {brief full : ResultEntry}
    (hbrief : result.ListedAs false brief) (hfull : result.ListedAs true full) (sign : String)
    (colour : Colour) : (brief.items sign colour).Sublist (full.items sign colour) := by
  have hissues := sublist_flatMap (List.Sublist.refl _) hbrief.issues hfull.issues
    fun _ _ _ => Issue.ListedAs.sublist
  have hid := Except.ok.inj (hbrief.analyzerId.symm.trans hfull.analyzerId)
  have hmessage := Except.ok.inj (hbrief.message.symm.trans hfull.message)
  simp only [ResultEntry.items, eq_nil_iff_of_forall₂ hbrief.issues,
    eq_nil_iff_of_forall₂ hfull.issues, hid, hmessage]
  refine (List.Sublist.refl _).append ?_
  split
  · exact List.Sublist.refl _
  · exact hissues.cons_cons _

/-- An entry of a section is made of its title, the sign of its status and its colour. -/
theorem Section.ListedAs.items_eq {verbose : Bool} {collection : Collection} {part : Section}
    {entry : SectionEntry} (h : part.ListedAs verbose collection entry) :
    entry.items = SectionEntry.items ⟨part.title, part.status.emoji, part.colour, entry.entries⟩ := by
  obtain ⟨_, _, _, _⟩ := entry
  obtain ⟨rfl, rfl, rfl, -⟩ := h
  rfl

/-- A full report adds nothing to a section but the code of its issues. -/
theorem Section.ListedAs.sublist {collection : Collection} {part : Section}
    {brief full : SectionEntry} (hbrief : part.ListedAs false collection brief)
    (hfull : part.ListedAs true collection full) : brief.items.Sublist full.items := by
  have hentries := sublist_flatMap (List.Sublist.refl _) hbrief.entries hfull.entries
    fun _ _ _ hone hother => hone.sublist hother part.status.emoji part.colour
  simp only [SectionEntry.items, eq_nil_iff_of_forall₂ hbrief.entries,
    eq_nil_iff_of_forall₂ hfull.entries, hbrief.title, hfull.title, hbrief.sign, hfull.sign,
    hbrief.colour, hfull.colour]
  split
  · exact List.Sublist.refl _
  · exact ((List.Sublist.refl _).append hentries).append (List.Sublist.refl _)

namespace Collection

variable {collection : Collection} {brief full outline : Outline} {verbose : Bool}

theorem OutlinedAs.sublist (hbrief : collection.OutlinedAs false brief)
    (hfull : collection.OutlinedAs true full) : brief.items.Sublist full.items := by
  have hsections : (Report.sections false).Sublist (Report.sections true) :=
    List.sublist_append_left _ _
  have hparts := sublist_flatMap hsections hbrief.sections hfull.sections
    fun _ _ _ => Section.ListedAs.sublist
  obtain ⟨time, htime, hbriefTime⟩ := hbrief.time
  obtain ⟨other, hother, hfullTime⟩ := hfull.time
  cases htime.symm.trans hother
  rw [Outline.items, Outline.items, Outline.figures, Outline.figures, hbrief.score, hfull.score,
    hbrief.tally, hfull.tally, hbriefTime, hfullTime, hbrief.verdict, hfull.verdict]
  exact ((List.Sublist.refl _).append hparts).append (List.Sublist.refl _)

/-- The lines of a brief report are among those of a full one. -/
theorem OutlinedAs.sublist_lines (hbrief : collection.OutlinedAs false brief)
    (hfull : collection.OutlinedAs true full) (printer : Printer) (colours : Bool) :
    (brief.lines printer colours).Sublist (full.lines printer colours) :=
  (List.Sublist.refl _).append ((hbrief.sublist hfull).flatMap _)

/-- The sections of an outline one by one. In a brief report the last one is left out, which is the
same as a section without results. -/
theorem OutlinedAs.exists_entries (h : collection.OutlinedAs verbose outline) :
    ∃ failed warnings errors passed : List ResultEntry,
      List.Forall₂ (Result.ListedAs verbose) (collection.byStatus .failed) failed ∧
      List.Forall₂ (Result.ListedAs verbose) (collection.byStatus .warning) warnings ∧
      List.Forall₂ (Result.ListedAs verbose) (collection.byStatus .error) errors ∧
      List.Forall₂ (Result.ListedAs verbose) (if verbose then collection.byStatus .passed else [])
        passed ∧
      outline.sections.flatMap SectionEntry.items =
        SectionEntry.items ⟨"Failed Analyzers", "✗", .red, failed⟩ ++
        SectionEntry.items ⟨"Warnings", "⚠", .yellow, warnings⟩ ++
        SectionEntry.items ⟨"Errors", "⚡", .red, errors⟩ ++
        SectionEntry.items ⟨"Passed Analyzers", "✓", .green, passed⟩ := by
  obtain ⟨failed, _, hfailed, hafter, hsections⟩ := List.forall₂_cons_left_iff.mp h.sections
  obtain ⟨warnings, _, hwarnings, hrest, rfl⟩ := List.forall₂_cons_left_iff.mp hafter
  obtain ⟨errors, last, herrors, hlast, rfl⟩ := List.forall₂_cons_left_iff.mp hrest
  obtain ⟨passed, hpassed, hitems⟩ : ∃ passed : List ResultEntry,
      List.Forall₂ (Result.ListedAs verbose) (if verbose then collection.byStatus .passed else [])
        passed ∧
      last.flatMap SectionEntry.items =
        SectionEntry.items ⟨"Passed Analyzers", "✓", .green, passed⟩ := by
    cases verbose with
    | false =>
      cases hlast
      exact ⟨[], .nil, rfl⟩
    | true =>
      obtain ⟨passed, _, hpassed, hnone, rfl⟩ := List.forall₂_cons_left_iff.mp hlast
      cases hnone
      refine ⟨passed.entries, hpassed.entries, ?_⟩
      rw [List.flatMap_singleton, hpassed.items_eq]
      rfl
  refine ⟨failed.entries, warnings.entries, errors.entries, passed, hfailed.entries,
    hwarnings.entries, herrors.entries, hpassed, ?_⟩
  rw [hsections, List.flatMap_cons, List.flatMap_cons, List.flatMap_cons, hitems,
    hfailed.items_eq, hwarnings.items_eq, herrors.items_eq, List.append_assoc, List.append_assoc]
  rfl

/-- The number of issues stands above the time. -/
theorem exists_topItems (collection : Collection) (total : Binary64) :
    ∃ (above : List Item) (time : Item), collection.topItems total =
      above ++ [⟨none, "Total Issues Found: " ++ toString collection.totalIssues⟩, time,
        ⟨none, ""⟩] := by
  obtain ⟨counts, hcounts⟩ : ∃ counts, collection.tally.items =
      counts ++ [⟨none, "Total Issues Found: " ++ toString collection.totalIssues⟩] :=
    ⟨_, (List.append_assoc _ [(⟨none, ""⟩ : Item)] [_]).symm⟩
  rw [topItems, hcounts, List.append_assoc, List.append_assoc, ← List.append_assoc]
  exact ⟨_, _, rfl⟩

/-- **Nothing is left out of a report.** It lists all failures, then all warnings, then all errors,
and then, in full reports, all successes, each once and in the order of the collection, with all of
their issues; what was skipped is never listed. As many issues are listed as the report says there
are, in brief reports as in full ones, and the lines of a brief report are among those of the full
one, in the same order. This holds for every faithful printer. The report is there unless the machine
cannot write a number of a place. -/
theorem lists_everything (hbuilt : ∀ result ∈ collection.results, result.IsBuilt) :
    (∀ printer : Printer, printer.IsFaithful → ∀ colours verbose text,
      collection.toConsole printer colours verbose = .ok text →
      ∃ (failed warnings errors passed : List ResultEntry) (total : Binary64) (above : List Item)
          (time : Item),
        List.Forall₂ (Result.ListedAs verbose)
          (collection.results.filter fun result => result.status = .failed) failed ∧
        List.Forall₂ (Result.ListedAs verbose)
          (collection.results.filter fun result => result.status = .warning) warnings ∧
        List.Forall₂ (Result.ListedAs verbose)
          (collection.results.filter fun result => result.status = .error) errors ∧
        List.Forall₂ (Result.ListedAs verbose)
          (if verbose then collection.results.filter fun result => result.status = .passed else [])
          passed ∧
        collection.topItems total = above ++
          [⟨none, "Total Issues Found: " ++ toString ((failed ++ warnings ++ errors ++ passed).map
            fun entry => entry.issues.length).sum⟩, time, ⟨none, ""⟩] ∧
        text.toList.splitOn '\n' = printer.titleLines colours ++
          (collection.topItems total).map (Item.line colours) ++
          (SectionEntry.items ⟨"Failed Analyzers", "✗", .red, failed⟩ ++
            SectionEntry.items ⟨"Warnings", "⚠", .yellow, warnings⟩ ++
            SectionEntry.items ⟨"Errors", "⚡", .red, errors⟩ ++
            SectionEntry.items ⟨"Passed Analyzers", "✓", .green, passed⟩).flatMap
              (Item.written printer colours) ++
          [collection.verdict.item.line colours, []]) ∧
    (∀ printer : Printer, printer.IsFaithful → ∀ colours brief full,
      collection.toConsole printer colours false = .ok brief →
      collection.toConsole printer colours true = .ok full →
      (brief.toList.splitOn '\n').Sublist (full.toList.splitOn '\n')) ∧
    ((∀ result ∈ collection.results, result.WellTyped) →
      ∀ total, collection.totalExecutionTime = .ok total → ∀ printer colours verbose,
        (∃ text, collection.toConsole printer colours verbose = .ok text) ↔
          ∀ result ∈ collection.listed verbose, result.IsShort) := by
  refine ⟨?_, ?_, fun htyped total htotal => exists_toConsole_iff htyped htotal⟩
  · intro printer hprinter colours verbose text htext
    obtain ⟨outline, houtline, rfl⟩ := toConsole_eq_ok_iff.mp htext
    obtain ⟨failed, warnings, errors, passed, hfailed, hwarnings, herrors, hpassed, hitems⟩ :=
      houtline.exists_entries
    obtain ⟨total, -, htime⟩ := houtline.time
    obtain ⟨above, time, habove⟩ := collection.exists_topItems total
    -- what is listed, section after section, is what the entries are of
    have hlisted : List.Forall₂ (Result.ListedAs verbose) (collection.listed verbose)
        (failed ++ warnings ++ errors ++ passed) :=
      List.rel_append (List.rel_append (List.rel_append hfailed hwarnings) herrors) hpassed
    have hcounts := map_eq_of_forall₂ (fun _ _ h => h.issues.length_eq.symm) hlisted
    have hissues : ((failed ++ warnings ++ errors ++ passed).map
        fun entry => entry.issues.length).sum = collection.totalIssues := by
      rw [← sum_issues_listed hbuilt]
      exact congrArg List.sum hcounts
    refine ⟨failed, warnings, errors, passed, total, above, time, hfailed, hwarnings, herrors,
      hpassed, hissues ▸ habove, ?_⟩
    rw [hprinter.splitOn_written, outline.lines_eq hprinter, houtline.figures_eq htime, hitems,
      houtline.verdict, List.append_assoc _ _ [[]], List.singleton_append]
  · intro printer hprinter colours brief full hbrief hfull
    obtain ⟨brief, houtline, rfl⟩ := toConsole_eq_ok_iff.mp hbrief
    obtain ⟨full, hmore, rfl⟩ := toConsole_eq_ok_iff.mp hfull
    rw [hprinter.splitOn_written, hprinter.splitOn_written]
    exact (houtline.sublist_lines hmore printer colours).append (List.Sublist.refl _)

end Collection

theorem mixedRuns_isBuilt : ∀ result ∈ mixedRuns.results, result.IsBuilt := by
  have hfailure : failureWithMetadata = .ofStatus .failed failureWithMetadata.analyzerId
      failureWithMetadata.message failureWithMetadata.issues failureWithMetadata.executionTime
      failureWithMetadata.metadata := rfl
  intro result hresult
  simp only [mixedRuns, List.mem_cons, List.not_mem_nil, or_false] at hresult
  rcases hresult with rfl | rfl | rfl
  · rw [hfailure]
    exact .ofStatus _ _ _ _ _ _
  · exact .ofStatus _ _ _ _ _ _
  · exact .ofStatus _ _ _ _ _ _

/-- The lines of the full report on such runs. -/
def mixedRunsLines : List (List Char) :=
  titleRows ++
    ["Score: 33.3%".toList, [], "Total Analyzers: 3".toList, "  ✓ Passed: 1".toList,
      "  ✗ Failed: 1".toList, "  ⚠ Warnings: 0".toList, "  ⊝ Skipped: 0".toList,
      "  ⚡ Errors: 1".toList, [], "Total Issues Found: 1".toList, "Execution Time: 0.5s".toList, [],
      "Failed Analyzers:".toList, List.replicate 60 '─', [], "✗ dynamic-code".toList,
      "  Found \"eval\"  in C:\\app".toList, [], "  Issues:".toList,
      "    • eval() runs any text as code".toList, "      Location: app/Jobs/Run.php:7".toList,
      "      Severity: Critical".toList,
      "      Recommendation: ".toList ++ "Call the function itself.".toList,
      "      Code:".toList, [],
      "Errors:".toList, List.replicate 60 '─', [], "⚡ dependencies".toList,
      "  No such file".toList, [],
      "Passed Analyzers:".toList, List.replicate 60 '─', [], "✓ raw-sql".toList,
      "  Nothing found".toList, [],
      "✗ Analysis completed with issues".toList]

/-- Of a failure, a success and an error, a full report lists the failure, the error and then the
success with the one issue that there is. Its lines are worked out, and the lines of the brief report
are among them. -/
theorem Collection.lists_everything_mixedRuns :
    (∀ result ∈ mixedRuns.results, result.IsBuilt) ∧
    ∃ brief full, mixedRuns.toConsole .standard false false = .ok brief ∧
      mixedRuns.toConsole .standard false true = .ok full ∧
      full.toList.splitOn '\n' = mixedRunsLines ++ [[]] ∧
      (brief.toList.splitOn '\n').Sublist (full.toList.splitOn '\n') ∧
      ∃ failed warnings errors passed : List ResultEntry,
        (failed.map fun entry => entry.issues.length) = [1] ∧ warnings = [] ∧
        (errors.map fun entry => entry.issues.length) = [0] ∧
        (passed.map fun entry => entry.issues.length) = [0] := by
  have hsome : (mixedRuns.toConsole .standard false false).toOption.isSome = true := by
    decide +kernel
  have hlines : (reportLines .standard true mixedRuns).toOption.map
      (fun lines => lines.map fun line => line.flatMap (Piece.written false)) =
        some mixedRunsLines := by
    decide +kernel
  have hunbroken : ∀ line ∈ mixedRunsLines, '\n' ∉ line := by decide +kernel
  obtain ⟨brief, hbrief⟩ := Option.isSome_iff_exists.mp hsome
  replace hbrief := eq_ok_of_toOption hbrief
  obtain ⟨full, hfull, hshown⟩ := exists_toConsole_of_reportLines hlines hunbroken
  obtain ⟨hlisted, hsublist, -⟩ := Collection.lists_everything mixedRuns_isBuilt
  have hfaithful := Printer.standard_isFaithful
  obtain ⟨failed, warnings, errors, passed, -, -, -, hfailed, hwarnings, herrors, hpassed, -⟩ :=
    hlisted .standard hfaithful false true full hfull
  have hcounts {results : List Result} {entries : List ResultEntry}
      (h : List.Forall₂ (Result.ListedAs true) results entries) :=
    map_eq_of_forall₂ (fun _ _ h => h.issues.length_eq.symm) h
  exact ⟨mixedRuns_isBuilt, brief, full, hbrief, hfull, hshown,
    hsublist .standard hfaithful false brief full hbrief hfull, failed, warnings, errors, passed,
    hcounts hfailed, List.forall₂_nil_left_iff.mp hwarnings, hcounts herrors, hcounts hpassed⟩

end PhpAudit.Report
