import PhpAudit.Proofs.Report.Document
import PhpAudit.Proofs.Report.Outline

/-!
# Reports agree

A collection is summed up by a tally: how many results there are, how many of each status, and how
many issues they have. A report in JSON states the digits of the tally beside the entries that it
counts, a report for a terminal has a line for each number with the same digits, and its last line
follows from the tally (`Collection.reports_agree`). Statuses part the results, so that the counts
of a tally add up to its total.
-/

namespace PhpAudit

open Data Number

namespace Json

/-- The value of a field of an object. -/
def Document.field? (name : String) : Document → Option Document
  | .object fields => (fields.find? fun field => field.1 == name.toList).map Prod.snd
  | _ => none

/-- The fields of a record are found under their names. -/
theorem exists_field?_eq_some {limit : Option Nat} {fields : List (String × Value)} {doc : Document}
    (h : Document.ofValue limit (.record fields) = .ok doc) (name : String) (value : Value)
    (hfield : (fields.find? fun field => field.1 == name) = some (name, value)) :
    ∃ part, doc.field? name = some part ∧ Document.ofValue limit value = .ok part := by
  obtain ⟨docs, rfl, hdocs⟩ := ofValue_record h
  clear h
  induction hdocs with
  | nil => cases hfield
  | @cons found source _ _ hfirst _ ih =>
    obtain ⟨hname, hpart⟩ := hfirst
    have hsame : (found.1.toList == name.toList) = (source.1 == name) := by
      rw [hname, Bool.eq_iff_iff, beq_iff_eq, beq_iff_eq, String.toList_inj]
    rw [List.find?_cons] at hfield
    rw [Document.field?, List.map_cons, List.find?_cons, hsame]
    cases hmatch : source.1 == name with
    | true =>
      rw [hmatch] at hfield
      cases hfield
      exact ⟨_, rfl, hpart⟩
    | false =>
      rw [hmatch] at hfield
      exact ih hfield

end Json

namespace Report

open Json (Document)

/-- The name that the number of results of a status has in a summary. -/
def Status.figure : Status → String
  | .passed => "passed"
  | .failed => "failed"
  | .warning => "warnings"
  | .skipped => "skipped"
  | .error => "errors"

namespace Tally

/-- A tally counts the entries of a report, the statuses that they name and their issues. -/
structure Counts (tally : Tally) (entries : List Document) : Prop where
  total : tally.total = entries.length
  count : ∃ statuses : List Status,
    List.Forall₂ (fun entry status => entry.field? "status" = some (.str status.text.toList))
      entries statuses ∧
    ∀ status, tally.count status = statuses.count status
  issues : ∃ issues : List (List Document),
    List.Forall₂ (fun entry items => entry.field? "issues" = some (.list items)) entries issues ∧
    tally.issues = (issues.map List.length).sum

/-- A report states a tally in its summary in decimal, and it counts the entries of the report. -/
structure StatedIn (tally : Tally) (report : Document) : Prop where
  summary : ∃ summary, report.field? "summary" = some summary ∧
    summary.field? "total" = some (.num (toString tally.total).toList) ∧
    (∀ status : Status,
      summary.field? status.figure = some (.num (toString (tally.count status)).toList)) ∧
    summary.field? "total_issues" = some (.num (toString tally.issues).toList)
  results : ∃ entries, report.field? "results" = some (.list entries) ∧ tally.Counts entries

end Tally

/-! ## Statuses part the results -/

/-- What is filtered by one key after the other is everything, in another order. -/
theorem perm_flatMap_filter {α β : Type} [DecidableEq β] (key : α → β) {keys : List β}
    (hkeys : keys.Nodup) {xs : List α} (hxs : ∀ x ∈ xs, key x ∈ keys) :
    (keys.flatMap fun k => xs.filter fun x => key x == k).Perm xs := by
  induction xs with
  | nil =>
    simp only [List.filter_nil]
    rw [List.flatMap_eq_nil_iff.mpr fun _ _ => rfl]
  | cons x xs ih =>
    obtain ⟨hx, hxs⟩ := List.forall_mem_cons.mp hxs
    -- The keys in front of the one of `x` and behind it do not see `x`.
    obtain ⟨front, back, rfl⟩ := List.append_of_mem hx
    have hother {keys : List β} (h : key x ∉ keys) :
        (keys.flatMap fun k => (x :: xs).filter fun x => key x == k) =
          keys.flatMap fun k => xs.filter fun x => key x == k := by
      refine List.flatMap_congr fun k hk => ?_
      rw [List.filter_cons_of_neg]
      intro heq
      exact h (eq_of_beq heq ▸ hk)
    obtain ⟨hfront, hback⟩ : key x ∉ front ∧ key x ∉ back := by
      rw [List.nodup_middle, List.nodup_cons, List.mem_append, not_or] at hkeys
      exact hkeys.1
    have hown : ((x :: xs).filter fun y => key y == key x) =
        x :: xs.filter fun y => key y == key x :=
      List.filter_cons_of_pos (beq_self_eq_true (key x))
    rw [List.flatMap_append, List.flatMap_cons, hother hfront, hother hback, hown, List.cons_append]
    have hrest := ih hxs
    rw [List.flatMap_append, List.flatMap_cons] at hrest
    exact List.perm_middle.trans (hrest.cons x)

namespace Collection

variable (collection : Collection)

theorem perm_flatMap_byStatus :
    (Status.all.flatMap collection.byStatus).Perm collection.results := by
  refine perm_flatMap_filter Result.status (by decide) fun result _ => ?_
  cases result.status <;> decide

/-- The counts of a tally add up to its total. -/
theorem sum_count : (Status.all.map collection.count).sum = collection.size := by
  rw [size, ← collection.perm_flatMap_byStatus.length_eq, List.length_flatMap]
  rfl

variable {collection}

theorem count_eq_zero_iff {status : Status} :
    collection.count status = 0 ↔ ∀ result ∈ collection.results, result.status ≠ status := by
  rw [count, byStatus, List.length_eq_zero_iff, List.filter_eq_nil_iff]
  simp only [beq_iff_eq, ne_eq]

/-- Nothing is left to do when there are no failures, no errors and no warnings. -/
theorem isSuccess_iff : collection.isSuccess = true ↔
    collection.count .failed + collection.count .error = 0 ∧ collection.count .warning = 0 := by
  rw [isSuccess, List.all_eq_true, Nat.add_eq_zero_iff]
  simp only [count_eq_zero_iff, ← forall_and]
  refine forall_congr' fun result => imp_congr_right fun _ => ?_
  rw [Result.isSuccess]
  cases result.status <;> decide

/-- The verdict tells successes, failures and warnings apart. -/
theorem verdict_iff :
    (collection.verdict = .success ↔ collection.isSuccess = true) ∧
    (collection.verdict = .issues ↔ 0 < collection.count .failed + collection.count .error) ∧
    (collection.verdict = .warnings ↔
      collection.isSuccess = false ∧ collection.count .failed + collection.count .error = 0) := by
  rw [← Bool.not_eq_true, isSuccess_iff, verdict]
  split
  next hissues =>
    simp only [reduceCtorEq, false_iff, true_iff]
    omega
  next hissues =>
    split
    next hwarnings =>
      simp only [reduceCtorEq, false_iff, true_iff]
      omega
    next hwarnings =>
      simp only [reduceCtorEq, false_iff, true_iff]
      omega

/-! ## The tally of a report in JSON -/

/-- A count in JSON is the count in decimal. -/
theorem ofValue_count {limit : Option Nat} {n : Nat} {part : Document}
    (h : Document.ofValue limit (.int n) = .ok part) : part = .num (toString n).toList := by
  rw [Document.ofValue, bind_eq_ok] at h
  obtain ⟨text, htext, h⟩ := h
  cases h
  rw [(decimal_eq_ok_iff.mp htext).2, ← count_eq_toString, Report.count]

/-- The entry of a result names its status and has all of its issues. -/
theorem fields_of_ofValue_toValue {limit : Option Nat} {result : Result} {entry : Document}
    (h : Document.ofValue limit result.toValue = .ok entry) :
    entry.field? "status" = some (.str result.status.text.toList) ∧
    ∃ items, entry.field? "issues" = some (.list items) ∧
      items.length = result.issues.length := by
  constructor
  · obtain ⟨part, hpart, hvalue⟩ := Json.exists_field?_eq_some h "status"
      (.text result.status.text) rfl
    cases hvalue
    exact hpart
  · obtain ⟨part, hpart, hvalue⟩ := Json.exists_field?_eq_some h "issues"
      (.list (result.issues.map Issue.toValue)) rfl
    obtain ⟨items, rfl, hitems⟩ := Json.ofValue_list hvalue
    exact ⟨items, hpart, hitems.length_eq.trans (List.length_map _)⟩

/-- The entries of a report have all issues. -/
theorem exists_issues {limit : Option Nat} {entries : List Document} {results : List Result}
    (h : List.Forall₂ (fun entry result => Document.ofValue limit (Result.toValue result) = .ok entry)
      entries results) :
    ∃ issues : List (List Document),
      List.Forall₂ (fun entry items => entry.field? "issues" = some (.list items)) entries issues ∧
      issues.map List.length = results.map fun result => result.issues.length := by
  induction h with
  | nil => exact ⟨[], .nil, rfl⟩
  | cons hentry _ ih =>
    obtain ⟨-, items, hitems, hlength⟩ := fields_of_ofValue_toValue hentry
    obtain ⟨issues, hissues, hlengths⟩ := ih
    exact ⟨items :: issues, .cons hitems hissues, by
      rw [List.map_cons, List.map_cons, hlength, hlengths]⟩

theorem counts_tally {limit : Option Nat} {entries : List Document}
    (h : List.Forall₂ (fun entry value => Document.ofValue limit value = .ok entry) entries
      collection.toValues) : collection.tally.Counts entries := by
  rw [toValues, List.forall₂_map_right_iff] at h
  refine ⟨h.length_eq.symm, ⟨collection.results.map Result.status, ?_, fun status => ?_⟩, ?_⟩
  · rw [List.forall₂_map_right_iff]
    exact h.imp fun _ _ hentry => (fields_of_ofValue_toValue hentry).1
  · rw [List.count, List.countP_map, List.countP_eq_length_filter]
    rfl
  · obtain ⟨issues, hissues, hlengths⟩ := exists_issues h
    refine ⟨issues, hissues, ?_⟩
    rw [hlengths, tally, totalIssues, List.length_flatMap]

/-- A report in JSON states the tally of its collection. -/
theorem statedIn_report {limit : Option Nat} {report : Value} {document : Document}
    (hreport : collection.report = .ok report) (h : Document.ofValue limit report = .ok document) :
    collection.tally.StatedIn document := by
  obtain ⟨summary, hsummary, hparts⟩ := bind_eq_ok.mp hreport
  obtain ⟨time, -, hfigures⟩ := bind_eq_ok.mp hsummary
  cases hparts
  cases hfigures
  obtain ⟨head, hhead, hsummary⟩ := Json.exists_field?_eq_some h "summary" _ rfl
  obtain ⟨_, hresults, hlist⟩ := Json.exists_field?_eq_some h "results" (.list collection.toValues)
    rfl
  -- a figure is found under its name, and what is found is its decimal
  have hcount {name : String} {n : Nat} (hfield : ∃ part, head.field? name = some part ∧
      Document.ofValue limit (.int n) = .ok part) :
      head.field? name = some (.num (toString n).toList) := by
    obtain ⟨part, hpart, hvalue⟩ := hfield
    rw [hpart, ofValue_count hvalue]
  have hfigure := Json.exists_field?_eq_some hsummary
  obtain ⟨entries, rfl, hentries⟩ := Json.ofValue_list hlist
  refine ⟨⟨head, hhead, hcount (hfigure "total" _ rfl), fun status => ?_,
    hcount (hfigure "total_issues" _ rfl)⟩, ⟨entries, hresults, counts_tally hentries⟩⟩
  cases status with
  | passed => exact hcount (hfigure "passed" _ rfl)
  | failed => exact hcount (hfigure "failed" _ rfl)
  | warning => exact hcount (hfigure "warnings" _ rfl)
  | skipped => exact hcount (hfigure "skipped" _ rfl)
  | error => exact hcount (hfigure "errors" _ rfl)

/-- A collection whose execution times add up has a report, which is written just when its integers
have no more digits than the limit allows. -/
theorem exists_toJson_iff {total : Binary64} (htotal : collection.totalExecutionTime = .ok total) :
    ∃ report, collection.report = .ok report ∧ ∀ style limit,
      (∃ text, collection.toJson style limit = .ok text) ↔
        ∀ digits ∈ limit, report.IsBelow (10 ^ digits) := by
  obtain ⟨report, hreport⟩ : ∃ report, collection.report = .ok report :=
    ⟨_, by rw [report, summary, htotal]; rfl⟩
  refine ⟨report, hreport, fun style limit => ?_⟩
  have htoJson : collection.toJson style limit =
      Document.ofValue limit report >>= fun doc => .ok (doc.render style) := by
    rw [toJson, hreport]
    rfl
  rw [htoJson]
  rcases Json.isSettled_ofValue limit report with ⟨doc, hdoc, hfits⟩ | ⟨digits, hdigits, hdoc, hnot⟩
  · rw [hdoc]
    exact iff_of_true ⟨_, rfl⟩ hfits
  · rw [hdoc]
    refine iff_of_false ?_ fun hfits => hnot (hfits digits hdigits)
    rintro ⟨_, ⟨⟩⟩

/-! ## Both reports -/

/-- The items between the title of a report and its first section, on a collection that took so much
time: the score, the tally and the time. -/
def topItems (collection : Collection) (total : Binary64) : List Item :=
  let score := percentage 1 collection.successes collection.size
  [⟨some (.colour (scoreColour score)), "Score: " ++ score.text ++ "%"⟩, ⟨none, ""⟩] ++
    collection.tally.items ++
    [⟨none, "Execution Time: " ++ (total.roundTo 2).text ++ "s"⟩, ⟨none, ""⟩]

/-- An outline of the collection has these items at its top. -/
theorem OutlinedAs.figures_eq {verbose : Bool} {outline : Outline} {total : Binary64}
    (h : collection.OutlinedAs verbose outline) (htime : outline.time = total.roundTo 2) :
    outline.figures ++ [⟨none, ""⟩] = collection.topItems total := by
  rw [Outline.figures, topItems, h.score, h.tally, htime, List.append_assoc]
  rfl

/-- The lines of a report for a terminal: the title, the items at the top, a body, and the verdict. -/
theorem exists_lines {printer : Printer} (hprinter : printer.IsFaithful) {colours verbose : Bool}
    {text : String} (htext : collection.toConsole printer colours verbose = .ok text) :
    ∃ total body, collection.totalExecutionTime = .ok total ∧
      text.toList.splitOn '\n' = printer.titleLines colours ++
        (collection.topItems total).map (Item.line colours) ++ body ++
        [collection.verdict.item.line colours, []] := by
  obtain ⟨outline, houtline, rfl⟩ := toConsole_eq_ok_iff.mp htext
  obtain ⟨total, htotal, htime⟩ := houtline.time
  refine ⟨total, (outline.sections.flatMap SectionEntry.items).flatMap
    (Item.written printer colours), htotal, ?_⟩
  rw [hprinter.splitOn_written, outline.lines_eq hprinter, houtline.figures_eq htime,
    houtline.verdict, List.append_assoc _ _ [[]], List.singleton_append]

/-- **Reports agree.** Statuses part the results, each part in the order of the collection. A report
in JSON is the document of a value, which states the tally of the collection, and is read back as
this document if its numbers are finite. A report for a terminal has a line for each number of the
same tally in every mode, whichever faithful printer writes it, and its last line is the verdict: a
success, issues or warnings as the tally has it. Both are written if the results are well-typed,
their execution times add up, and the machine can write their integers. -/
theorem reports_agree (collection : Collection) :
    ((Status.all.flatMap collection.byStatus).Perm collection.results ∧
      (∀ status, (collection.byStatus status).Sublist collection.results) ∧
      ∀ result ∈ collection.results, ∀ status,
        result ∈ collection.byStatus status ↔ status = result.status) ∧
    (Status.all.map collection.tally.count).sum = collection.tally.total ∧
    (∀ style limit text, collection.toJson style limit = .ok text →
      ∃ report document, collection.report = .ok report ∧
        Document.ofValue limit report = .ok document ∧ text = document.render style ∧
        (report.IsFinite → document.Holds report ∧ Json.read? text.toList = some document) ∧
        collection.tally.StatedIn document) ∧
    (∀ printer : Printer, printer.IsFaithful → ∀ colours verbose text,
      collection.toConsole printer colours verbose = .ok text →
      ∃ total body, collection.totalExecutionTime = .ok total ∧
        text.toList.splitOn '\n' = printer.titleLines colours ++
          (collection.topItems total).map (Item.line colours) ++ body ++
          [collection.verdict.item.line colours, []]) ∧
    ((collection.verdict = .success ↔ collection.isSuccess = true) ∧
      (collection.verdict = .issues ↔
        0 < collection.tally.count .failed + collection.tally.count .error) ∧
      (collection.verdict = .warnings ↔ collection.isSuccess = false ∧
        collection.tally.count .failed + collection.tally.count .error = 0)) ∧
    (∀ total, collection.totalExecutionTime = .ok total →
      (∃ report, collection.report = .ok report ∧ ∀ style limit,
        (∃ text, collection.toJson style limit = .ok text) ↔
          ∀ digits ∈ limit, report.IsBelow (10 ^ digits)) ∧
      ((∀ result ∈ collection.results, result.WellTyped) → ∀ printer colours verbose,
        (∃ text, collection.toConsole printer colours verbose = .ok text) ↔
          ∀ result ∈ collection.listed verbose, result.IsShort)) := by
  refine ⟨⟨collection.perm_flatMap_byStatus, ?_, ?_⟩, collection.sum_count, ?_,
    fun _ hprinter _ _ _ => exists_lines hprinter, verdict_iff, ?_⟩
  · intro status
    exact List.filter_sublist
  · intro result hresult status
    rw [byStatus, List.mem_filter, beq_iff_eq, eq_comm]
    exact and_iff_right hresult
  · intro style limit text htext
    obtain ⟨report, hreport, h⟩ := bind_eq_ok.mp htext
    obtain ⟨document, hdocument, h⟩ := bind_eq_ok.mp h
    cases h
    exact ⟨report, document, hreport, hdocument, rfl,
      fun hfinite => Json.read?_render hfinite hdocument style, statedIn_report hreport hdocument⟩
  · intro total htotal
    exact ⟨exists_toJson_iff htotal, fun htyped => exists_toConsole_iff htyped htotal⟩

end Collection

/-- A failure, a success and an error. -/
def mixedRuns : Collection where
  results := [failureWithMetadata, .ofStatus .passed (.text "raw-sql") (.text "Nothing found"),
    .ofStatus .error (.text "dependencies") (.text "No such file")]

/-- Both reports on such runs are written. Of three results one has an issue; the figures at the top
of the report for a terminal and the verdict are as follows. -/
theorem Collection.reports_agree_mixedRuns :
    mixedRuns.tally.total = 3 ∧ mixedRuns.tally.count .error = 1 ∧ mixedRuns.tally.issues = 1 ∧
    (∃ document, mixedRuns.toJson .pretty = .ok (document.render .pretty) ∧
      mixedRuns.tally.StatedIn document) ∧
    ∃ text body, mixedRuns.toConsole .standard false false = .ok text ∧
      text.toList.splitOn '\n' = titleRows ++
        ["Score: 33.3%".toList, [], "Total Analyzers: 3".toList, "  ✓ Passed: 1".toList,
          "  ✗ Failed: 1".toList, "  ⚠ Warnings: 0".toList, "  ⊝ Skipped: 0".toList,
          "  ⚡ Errors: 1".toList, [], "Total Issues Found: 1".toList,
          "Execution Time: 0.5s".toList, []] ++ body ++
        ["✗ Analysis completed with issues".toList, []] := by
  obtain ⟨-, -, hjson, hconsole, -, -⟩ := Collection.reports_agree mixedRuns
  refine ⟨rfl, rfl, rfl, ?_, ?_⟩
  · have hsome : (mixedRuns.toJson .pretty).toOption.isSome = true := by decide +kernel
    obtain ⟨text, htext⟩ := Option.isSome_iff_exists.mp hsome
    replace htext := eq_ok_of_toOption htext
    obtain ⟨_, document, -, -, rfl, -, hstated⟩ := hjson _ _ text htext
    exact ⟨document, htext, hstated⟩
  · have hsome : (mixedRuns.toConsole .standard false false).toOption.isSome = true := by
      decide +kernel
    obtain ⟨text, htext⟩ := Option.isSome_iff_exists.mp hsome
    replace htext := eq_ok_of_toOption htext
    obtain ⟨total, body, htotal, hlines⟩ :=
      hconsole .standard Printer.standard_isFaithful _ _ text htext
    have htime : mixedRuns.totalExecutionTime = .ok (.finite false (2 ^ 52) (-53)) :=
      eq_ok_of_toOption (by decide +kernel)
    have htop : (mixedRuns.topItems (.finite false (2 ^ 52) (-53))).map (Item.line false) =
        ["Score: 33.3%".toList, [], "Total Analyzers: 3".toList, "  ✓ Passed: 1".toList,
          "  ✗ Failed: 1".toList, "  ⚠ Warnings: 0".toList, "  ⊝ Skipped: 0".toList,
          "  ⚡ Errors: 1".toList, [], "Total Issues Found: 1".toList,
          "Execution Time: 0.5s".toList, []] := by decide +kernel
    have hverdict : mixedRuns.verdict.item.line false =
        "✗ Analysis completed with issues".toList := by decide +kernel
    cases htotal.symm.trans htime
    rw [htop, hverdict, Printer.standard_isFaithful.titleLines_false] at hlines
    exact ⟨text, body, htext, hlines⟩

end Report

end PhpAudit
