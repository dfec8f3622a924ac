import PhpAudit.Proofs.Data.Record
import PhpAudit.Proofs.Data.Related
import PhpAudit.Proofs.Json.Value
import PhpAudit.Proofs.Report.Setting
import PhpAudit.Proofs.Report.Typed

/-!
# Outlines of reports

What a report for a terminal says, apart from how it is set: its tally, the entries of its sections
with their issues, and its verdict. An outline has a layout of its own, item by item with the text
and the ink of each, which knows nothing of collections; `Collection.OutlinedAs` says what a
collection has to do with its outline, one entry for each thing that is listed. A report is the
layout of the outline of its collection (`Collection.toConsole_eq_ok_iff`), so that what a report
says is read off the outline. It fails for the numbers in a place, and for nothing else in results
of their declared types (`Collection.exists_toConsole_iff`).
-/

namespace PhpAudit.Report

open Data Number

/-! ## Outlines and their layout -/

/-- The numbers that sum up a collection. -/
structure Tally where
  total : Nat
  count : Status → Nat
  issues : Nat

/-- An issue as it is listed. Its place and its code may be left out. -/
structure IssueEntry where
  message : String
  place : Option String
  severity : Severity
  recommendation : String
  code : Option (List (List Char))

/-- A result as it is listed, with its issues. -/
structure ResultEntry where
  analyzerId : String
  message : String
  issues : List IssueEntry

/-- A section with the results that it lists. All of them have its sign and its colour. -/
structure SectionEntry where
  title : String
  sign : String
  colour : Colour
  entries : List ResultEntry

/-- What a report comes to in the end. -/
inductive Verdict where
  | issues | warnings | success
deriving DecidableEq

/-- What a report says. -/
structure Outline where
  score : Binary64
  tally : Tally
  time : Binary64
  sections : List SectionEntry
  verdict : Verdict

/-- The items that state a tally. The number of errors is left out when it is zero. -/
def Tally.items (tally : Tally) : List Item :=
  [⟨none, "Total Analyzers: " ++ toString tally.total⟩,
    ⟨some (.colour .green), "  ✓ Passed: " ++ toString (tally.count .passed)⟩,
    ⟨some (.colour .red), "  ✗ Failed: " ++ toString (tally.count .failed)⟩,
    ⟨some (.colour .yellow), "  ⚠ Warnings: " ++ toString (tally.count .warning)⟩,
    ⟨some (.colour .gray), "  ⊝ Skipped: " ++ toString (tally.count .skipped)⟩] ++
    (if tally.count .error = 0 then []
      else [⟨some (.colour .red), "  ⚡ Errors: " ++ toString (tally.count .error)⟩]) ++
    [⟨none, ""⟩, ⟨none, "Total Issues Found: " ++ toString tally.issues⟩]

/-- The items at the top: the score, the tally and the time. -/
def Outline.figures (outline : Outline) : List Item :=
  [⟨some (.colour (scoreColour outline.score)), "Score: " ++ outline.score.text ++ "%"⟩,
    ⟨none, ""⟩] ++ outline.tally.items ++
    [⟨none, "Execution Time: " ++ outline.time.text ++ "s"⟩]

/-- The items that show a place, if there is one. -/
def placeItems (place : Option String) : List Item :=
  place.toList.map fun place => ⟨some (.colour .gray), "      Location: " ++ place⟩

/-- The items that show code, if there is any. -/
def codeLayout (code : Option (List (List Char))) : List Item :=
  code.toList.flatMap fun code => ⟨some (.colour .gray), "      Code:"⟩ ::
    code.map fun line => ⟨some (.colour .gray), "        " ++ String.ofList line⟩

/-- The items that list an issue. The name of its severity starts with a capital. -/
def IssueEntry.items (entry : IssueEntry) : List Item :=
  [⟨none, "    • " ++ entry.message⟩] ++ placeItems entry.place ++
    [⟨some (.colour entry.severity.colour),
      "      Severity: " ++ entry.severity.text.capitalize⟩,
    ⟨none, "      Recommendation: " ++ entry.recommendation⟩] ++ codeLayout entry.code

/-- The items that list a result, with the sign and in the colour of its section. -/
def ResultEntry.items (sign : String) (colour : Colour) (entry : ResultEntry) : List Item :=
  [⟨none, ""⟩,
    ⟨some (.colour colour), sign ++ " " ++ entry.analyzerId⟩,
    ⟨none, "  " ++ entry.message⟩] ++
    if entry.issues = [] then []
    else ⟨some (.colour colour), "  Issues:"⟩ :: entry.issues.flatMap IssueEntry.items

/-- The items of a section. A section without results takes none. -/
def SectionEntry.items (part : SectionEntry) : List Item :=
  if part.entries = [] then []
  else [⟨some (.colour part.colour), part.title ++ ":"⟩,
    ⟨none, String.ofList (List.replicate 60 '─')⟩] ++
    part.entries.flatMap (ResultEntry.items part.sign part.colour) ++ [⟨none, ""⟩]

/-- The item that states the verdict. -/
def Verdict.item : Verdict → Item
  | .issues => ⟨some (.colour .red), "✗ Analysis completed with issues"⟩
  | .warnings => ⟨some (.colour .yellow), "⚠ Analysis completed with warnings"⟩
  | .success => ⟨some (.colour .green), "✓ Analysis completed successfully"⟩

/-- The items below the title. -/
def Outline.items (outline : Outline) : List Item :=
  outline.figures ++ [⟨none, ""⟩] ++ outline.sections.flatMap SectionEntry.items ++
    [outline.verdict.item]

/-- The lines of the report. -/
def Outline.lines (outline : Outline) (printer : Printer) (colours : Bool) : List (List Char) :=
  printer.titleLines colours ++ outline.items.flatMap (Item.written printer colours)

/-- The report as a text: its lines, each with a line feed behind it. -/
def Outline.written (outline : Outline) (printer : Printer) (colours : Bool) : String :=
  String.ofList ((outline.lines printer colours).flatMap (· ++ ['\n']))

/-! ## Collections and their outlines -/

/-- How a place is shown: its file, its line and its column, with colons between them, as far as
they are known. A column without a line is left out. -/
inductive Location.ShownAs : Location → String → Prop
  | file (file : String) (column : Value) : ShownAs ⟨.text file, .null, column⟩ file
  | line {file line : Value} {path number : String} (hknown : line ≠ .null)
    (hfile : file.shown = .ok path) (hline : line.shown = .ok number) :
    ShownAs ⟨file, line, .null⟩ (path ++ ":" ++ number)
  | column {file line column : Value} {path number position : String} (hknown : line ≠ .null)
    (hcolumn : column ≠ .null) (hfile : file.shown = .ok path) (hline : line.shown = .ok number)
    (hposition : column.shown = .ok position) :
    ShownAs ⟨file, line, column⟩ (path ++ ":" ++ number ++ ":" ++ position)

/-- The code that is listed with an issue: line by line if it is asked for and there is any. -/
inductive CodeListedAs : Bool → Value → Option (List (List Char)) → Prop where
  | brief (code : Value) : CodeListedAs false code none
  | missing : CodeListedAs true .null none
  | full (code : String) : CodeListedAs true (.text code) (some (Text.lines code.toList))

/-- An issue is listed with everything it has to say. -/
structure Issue.ListedAs (verbose : Bool) (issue : Issue) (entry : IssueEntry) : Prop where
  message : issue.message.shown = .ok entry.message
  place : Option.Rel Location.ShownAs issue.location entry.place
  severity : entry.severity = issue.severity
  recommendation : issue.recommendation.shown = .ok entry.recommendation
  code : CodeListedAs verbose issue.code entry.code

/-- A result is listed with all of its issues, in order. -/
structure Result.ListedAs (verbose : Bool) (result : Result) (entry : ResultEntry) : Prop where
  analyzerId : result.analyzerId.shown = .ok entry.analyzerId
  message : result.message.shown = .ok entry.message
  issues : List.Forall₂ (Issue.ListedAs verbose) result.issues entry.issues

/-- A section lists all results of its status, in order. -/
structure Section.ListedAs (verbose : Bool) (collection : Collection) (part : Section)
    (entry : SectionEntry) : Prop where
  title : entry.title = part.title
  sign : entry.sign = part.status.emoji
  colour : entry.colour = part.colour
  entries : List.Forall₂ (Result.ListedAs verbose) (collection.byStatus part.status) entry.entries

namespace Collection

/-- The tally of a collection. -/
def tally (collection : Collection) : Tally where
  total := collection.size
  count := collection.count
  issues := collection.totalIssues

/-- The verdict on a collection: failures and errors are worse than warnings. -/
def verdict (collection : Collection) : Verdict :=
  if 0 < collection.count .failed + collection.count .error then .issues
  else if 0 < collection.count .warning then .warnings
  else .success

/-- An outline says what its collection holds. -/
structure OutlinedAs (verbose : Bool) (collection : Collection) (outline : Outline) : Prop where
  score : outline.score = percentage 1 collection.successes collection.size
  tally : outline.tally = collection.tally
  time : ∃ time, collection.totalExecutionTime = .ok time ∧ outline.time = time.roundTo 2
  sections : List.Forall₂ (Section.ListedAs verbose collection) (sections verbose) outline.sections
  verdict : outline.verdict = collection.verdict

end Collection

/-! ## Reports are laid out -/

/-- A loop that lists one thing after the other lists the entries of all of them. -/
theorem loop_eq_ok_iff {α β : Type} (step : α → Except Fault (List Item))
    (loop : List α → Except Fault (List Item)) {ListedAs : α → β → Prop}
    {layout : β → List Item} (hnil : loop [] = .ok [])
    (hcons : ∀ x xs, loop (x :: xs) = step x >>= fun first => loop xs >>= fun more =>
      .ok (first ++ more))
    {xs : List α}
    (hstep : ∀ x ∈ xs, ∀ items, step x = .ok items ↔
      ∃ entry, ListedAs x entry ∧ items = layout entry)
    {items : List Item} :
    loop xs = .ok items ↔
      ∃ entries, List.Forall₂ ListedAs xs entries ∧ items = entries.flatMap layout := by
  induction xs generalizing items with
  | nil =>
    rw [hnil, Except.ok.injEq]
    constructor
    · rintro rfl
      exact ⟨[], .nil, rfl⟩
    · rintro ⟨_, ⟨⟩, rfl⟩
      rfl
  | cons x xs ih =>
    obtain ⟨hx, hxs⟩ := List.forall_mem_cons.mp hstep
    simp only [hcons, bind_eq_ok, hx, ih hxs]
    constructor
    · rintro ⟨_, ⟨entry, hentry, rfl⟩, _, ⟨entries, hentries, rfl⟩, ⟨⟩⟩
      exact ⟨entry :: entries, .cons hentry hentries, rfl⟩
    · rintro ⟨_, hlisted, rfl⟩
      cases hlisted with
      | cons hentry hentries => exact ⟨_, ⟨_, hentry, rfl⟩, _, ⟨_, hentries, rfl⟩, rfl⟩

/-- The label of a severity is its stored text with the first letter raised. -/
theorem label_eq_capitalize (severity : Severity) : severity.label = severity.text.capitalize := by
  cases severity <;> rfl

/-- A value is null only if it is the null value. -/
theorem isNull_eq_false {value : Value} (h : value ≠ .null) : value.isNull = false := by
  cases value with
  | null => exact absurd rfl h
  | _ => rfl

/-- A place has a text just when it is shown as that text. -/
theorem Location.text_eq_ok_iff {location : Location} {place : String} :
    location.text = .ok place ↔ location.ShownAs place := by
  obtain ⟨file, line, column⟩ := location
  rw [Location.text]
  constructor
  · intro h
    -- the column is looked at only behind a line that is known
    by_cases hline : line = .null
    · subst hline
      cases file with
      | text file =>
        cases h
        exact .file _ column
      | _ => cases h
    · rw [if_neg (by rw [isNull_eq_false hline]; exact Bool.false_ne_true)] at h
      obtain ⟨path, hpath, h⟩ := bind_eq_ok.mp h
      obtain ⟨number, hnumber, h⟩ := bind_eq_ok.mp h
      by_cases hcolumn : column = .null
      · subst hcolumn
        cases h
        exact .line hline hpath hnumber
      · rw [if_neg (by rw [isNull_eq_false hcolumn]; exact Bool.false_ne_true)] at h
        obtain ⟨position, hposition, h⟩ := bind_eq_ok.mp h
        cases h
        exact .column hline hcolumn hpath hnumber hposition
  · intro h
    cases h with
    | file => rfl
    | line hknown hfile hline =>
      simp only [isNull_eq_false hknown, hfile, hline]
      rfl
    | column hknown hcolumn hfile hline hposition =>
      simp only [isNull_eq_false hknown, isNull_eq_false hcolumn, hfile, hline, hposition]
      rfl

/-- The code of an issue is listed line by line, or is left out where it is not shown. -/
theorem codeItems_eq_ok_iff {verbose : Bool} {code : Value} {items : List Item} :
    codeItems verbose code = .ok items ↔
      ∃ listed, CodeListedAs verbose code listed ∧ items = codeLayout listed := by
  constructor
  · intro h
    cases verbose with
    | false =>
      cases h
      exact ⟨none, .brief code, rfl⟩
    | true =>
      cases code with
      | null =>
        cases h
        exact ⟨none, .missing, rfl⟩
      | text code =>
        cases h
        exact ⟨_, .full code, (List.append_nil _).symm⟩
      | _ => cases h
  · rintro ⟨_, hlisted, rfl⟩
    cases hlisted with
    | brief => rfl
    | missing => rfl
    | full code =>
      rw [codeLayout, Option.toList_some, List.flatMap_singleton]
      rfl

/-- The place of an issue is listed when it has a place that can be spelled. -/
theorem locationItems_eq_ok_iff {location : Option Location} {items : List Item} :
    locationItems location = .ok items ↔
      ∃ place, Option.Rel Location.ShownAs location place ∧ items = placeItems place := by
  cases location with
  | none =>
    constructor
    · intro h
      cases h
      exact ⟨none, .none, rfl⟩
    · rintro ⟨_, ⟨⟩, rfl⟩
      rfl
  | some location =>
    simp only [locationItems, bind_eq_ok, Location.text_eq_ok_iff]
    constructor
    · rintro ⟨place, hplace, h⟩
      cases h
      exact ⟨some place, .some hplace, rfl⟩
    · rintro ⟨_, ⟨hplace⟩, rfl⟩
      exact ⟨_, hplace, rfl⟩

/-- An issue is listed by its entry, in the layout of the entry. -/
theorem issueItems_eq_ok_iff {verbose : Bool} {issue : Issue} {items : List Item} :
    issueItems verbose issue = .ok items ↔
      ∃ entry, issue.ListedAs verbose entry ∧ items = entry.items := by
  simp only [issueItems, bind_eq_ok, locationItems_eq_ok_iff, codeItems_eq_ok_iff,
    label_eq_capitalize]
  constructor
  · rintro ⟨_, hmessage, _, ⟨place, hplace, rfl⟩, _, hrecommendation, _, ⟨code, hcode, rfl⟩, h⟩
    cases h
    exact ⟨⟨_, place, _, _, code⟩, ⟨hmessage, hplace, rfl, hrecommendation, hcode⟩, rfl⟩
  · rintro ⟨⟨_, place, _, _, code⟩, ⟨hmessage, hplace, rfl, hrecommendation, hcode⟩, rfl⟩
    exact ⟨_, hmessage, _, ⟨place, hplace, rfl⟩, _, hrecommendation, _, ⟨code, hcode, rfl⟩, rfl⟩

/-- Issues are listed one entry each, in their order. -/
theorem issuesItems_eq_ok_iff {verbose : Bool} {issues : List Issue} {items : List Item} :
    issuesItems verbose issues = .ok items ↔
      ∃ entries, List.Forall₂ (Issue.ListedAs verbose) issues entries ∧
        items = entries.flatMap IssueEntry.items :=
  loop_eq_ok_iff (issueItems verbose) (issuesItems verbose) rfl (fun _ _ => rfl)
    fun _ _ _ => issueItems_eq_ok_iff

/-- A result is listed by its entry, under the sign and colour of its status. -/
theorem resultItems_eq_ok_iff {verbose : Bool} {colour : Colour} {result : Result}
    {items : List Item} :
    resultItems verbose colour result = .ok items ↔
      ∃ entry, result.ListedAs verbose entry ∧ items = entry.items result.status.emoji colour := by
  simp only [resultItems, bind_eq_ok, issuesItems_eq_ok_iff, List.isEmpty_iff]
  constructor
  · rintro ⟨_, hid, _, hmessage, _, ⟨entries, hentries, rfl⟩, h⟩
    cases h
    refine ⟨⟨_, _, entries⟩, ⟨hid, hmessage, hentries⟩, ?_⟩
    simp only [ResultEntry.items, eq_nil_iff_of_forall₂ hentries]
    rfl
  · rintro ⟨⟨_, _, entries⟩, ⟨hid, hmessage, hentries⟩, rfl⟩
    refine ⟨_, hid, _, hmessage, _, ⟨entries, hentries, rfl⟩, ?_⟩
    simp only [ResultEntry.items, eq_nil_iff_of_forall₂ hentries]
    rfl

/-- Results of one status are listed with the sign of the status. -/
theorem resultsItems_eq_ok_iff {verbose : Bool} {colour : Colour} {status : Status}
    {results : List Result} (hstatus : ∀ result ∈ results, result.status = status)
    {items : List Item} :
    resultsItems verbose colour results = .ok items ↔
      ∃ entries, List.Forall₂ (Result.ListedAs verbose) results entries ∧
        items = entries.flatMap (ResultEntry.items status.emoji colour) := by
  refine loop_eq_ok_iff (resultItems verbose colour) (resultsItems verbose colour) rfl
    (fun _ _ => rfl) fun result hresult items => ?_
  rw [← hstatus result hresult]
  exact resultItems_eq_ok_iff

/-- The results chosen by a status have that status. -/
theorem status_of_mem_byStatus {collection : Collection} {status : Status} {result : Result}
    (h : result ∈ collection.byStatus status) : result.status = status :=
  eq_of_beq (List.mem_filter.mp h).2

/-- A section is listed by its entry, which holds the results of its status. -/
theorem sectionItems_eq_ok_iff {verbose : Bool} {collection : Collection} {part : Section}
    {items : List Item} :
    sectionItems verbose collection part = .ok items ↔
      ∃ entry, part.ListedAs verbose collection entry ∧ items = entry.items := by
  have hlist (entries : List ResultEntry)
      (h : List.Forall₂ (Result.ListedAs verbose) (collection.byStatus part.status) entries) :=
    eq_nil_iff_of_forall₂ h
  simp only [sectionItems, List.isEmpty_iff]
  split
  next hnone =>
    constructor
    · intro h
      cases h
      exact ⟨⟨_, _, _, []⟩, ⟨rfl, rfl, rfl, hnone ▸ .nil⟩, rfl⟩
    · rintro ⟨⟨_, _, _, entries⟩, ⟨rfl, rfl, rfl, hentries⟩, rfl⟩
      rw [SectionEntry.items, if_pos ((hlist entries hentries).mpr hnone)]
  next hsome =>
    simp only [bind_eq_ok, resultsItems_eq_ok_iff fun _ => status_of_mem_byStatus]
    constructor
    · rintro ⟨_, ⟨entries, hentries, rfl⟩, h⟩
      cases h
      refine ⟨⟨_, _, _, entries⟩, ⟨rfl, rfl, rfl, hentries⟩, ?_⟩
      rw [SectionEntry.items, if_neg (mt (hlist entries hentries).mp hsome)]
      rfl
    · rintro ⟨⟨_, _, _, entries⟩, ⟨rfl, rfl, rfl, hentries⟩, rfl⟩
      refine ⟨_, ⟨entries, hentries, rfl⟩, ?_⟩
      rw [SectionEntry.items, if_neg (mt (hlist entries hentries).mp hsome)]
      rfl

/-- Sections are listed one entry each, in their order. -/
theorem sectionsItems_eq_ok_iff {verbose : Bool} {collection : Collection} {parts : List Section}
    {items : List Item} :
    sectionsItems verbose collection parts = .ok items ↔
      ∃ entries, List.Forall₂ (Section.ListedAs verbose collection) parts entries ∧
        items = entries.flatMap SectionEntry.items :=
  loop_eq_ok_iff (sectionItems verbose collection) (sectionsItems verbose collection) rfl
    (fun _ _ => rfl) fun _ _ _ => sectionItems_eq_ok_iff

/-- A count is written in decimal. -/
theorem count_eq_toString (n : Nat) : count n = toString n := by
  rw [count, Integer.text, Integer.chars, if_neg (by omega)]
  rfl

namespace Collection

variable {collection : Collection} {verbose : Bool}

/-- The summary lists the score, the counts and the time of the collection. -/
theorem summaryItems_eq_ok_iff {items : List Item} :
    summaryItems collection = .ok items ↔
      ∃ time, collection.totalExecutionTime = .ok time ∧ ∀ sections verdict,
        items = Outline.figures ⟨percentage 1 collection.successes collection.size,
          collection.tally, time.roundTo 2, sections, verdict⟩ := by
  rw [summaryItems, bind_eq_ok]
  refine exists_congr fun time => and_congr_right fun _ => ?_
  by_cases hnone : collection.count .error = 0
  all_goals
    simp only [count_eq_toString, Outline.figures, Tally.items, tally, hnone, if_true, if_false]
    constructor
    · intro h sections verdict
      cases h
      rfl
    · intro h
      rw [h [] .success]
      rfl

/-- There is no result of a status if their number is zero. -/
theorem not_isEmpty_byStatus_iff {status : Status} :
    (!(collection.byStatus status).isEmpty) = true ↔ 0 < collection.count status := by
  rw [Bool.not_eq_true', List.isEmpty_eq_false_iff, count, List.length_pos_iff]

/-- The footer is the line of the verdict. -/
theorem footerItem_eq : footerItem collection = collection.verdict.item := by
  simp only [footerItem, verdict, Bool.or_eq_true, not_isEmpty_byStatus_iff,
    Nat.add_pos_iff_pos_or_pos]
  split
  · rfl
  · split <;> rfl

/-- A report is laid out by an outline of the collection, and by nothing else. -/
theorem reportItems_eq_ok_iff {items : List Item} :
    reportItems verbose collection = .ok items ↔
      ∃ outline, collection.OutlinedAs verbose outline ∧ items = outline.items := by
  simp only [reportItems, bind_eq_ok, summaryItems_eq_ok_iff, sectionsItems_eq_ok_iff,
    footerItem_eq]
  constructor
  · rintro ⟨_, ⟨time, htime, hfigures⟩, _, ⟨entries, hentries, rfl⟩, h⟩
    cases h
    refine ⟨⟨_, _, _, entries, _⟩, ⟨rfl, rfl, ⟨time, htime, rfl⟩, hentries, rfl⟩, ?_⟩
    rw [hfigures entries collection.verdict]
    rfl
  · rintro ⟨⟨_, _, _, entries, _⟩, ⟨rfl, rfl, ⟨time, htime, rfl⟩, hentries, rfl⟩, rfl⟩
    exact ⟨_, ⟨time, htime, fun _ _ => rfl⟩, _, ⟨entries, hentries, rfl⟩, rfl⟩

variable {printer : Printer} {colours : Bool}

/-- **A report is the layout of an outline of its collection.** There is no report if there is no
outline. -/
theorem toConsole_eq_ok_iff {text : String} :
    collection.toConsole printer colours verbose = .ok text ↔
      ∃ outline, collection.OutlinedAs verbose outline ∧
        text = outline.written printer colours := by
  have hwritten (items : List Item) :
      (inInk (some .bold) (printer.frame reportWidth reportTitle.toList) ++
        items.flatMap (Item.lines printer)).flatMap (writtenLine colours) =
      (printer.titleLines colours ++ items.flatMap (Item.written printer colours)).flatMap
        (· ++ ['\n']) := by
    rw [List.flatMap_append, List.flatMap_append, flatMap_writtenLine, List.flatMap_assoc,
      List.flatMap_assoc]
    exact congrArg _ (List.flatMap_congr fun item _ => flatMap_writtenLine colours item.ink _)
  simp only [toConsole, reportLines, bind_eq_ok, reportItems_eq_ok_iff]
  constructor
  · rintro ⟨_, ⟨_, ⟨outline, houtline, rfl⟩, hlines⟩, h⟩
    cases hlines
    cases h
    rw [hwritten]
    exact ⟨outline, houtline, rfl⟩
  · rintro ⟨outline, houtline, rfl⟩
    refine ⟨_, ⟨_, ⟨outline, houtline, rfl⟩, rfl⟩, ?_⟩
    rw [hwritten]
    rfl

/-- A report that has been worked out line by line has these lines. -/
theorem exists_toConsole_of_reportLines {shown : List (List Char)}
    (h : (reportLines printer verbose collection).toOption.map
      (fun lines => lines.map fun line => line.flatMap (Piece.written colours)) = some shown)
    (hshown : ∀ line ∈ shown, '\n' ∉ line) :
    ∃ text, collection.toConsole printer colours verbose = .ok text ∧
      text.toList.splitOn '\n' = shown ++ [[]] := by
  obtain ⟨lines, hlines, rfl⟩ := Option.map_eq_some_iff.mp h
  refine ⟨String.ofList (lines.flatMap (writtenLine colours)), ?_, ?_⟩
  · rw [toConsole, eq_ok_of_toOption hlines]
    rfl
  · rw [String.toList_ofList, ← Text.splitOn_lines hshown, List.flatMap_map]
    rfl

end Collection

/-- The lines of a report are those of its outline. -/
theorem Printer.IsFaithful.splitOn_written {printer : Printer} (h : printer.IsFaithful)
    (outline : Outline) (colours : Bool) :
    (outline.written printer colours).toList.splitOn '\n' =
      outline.lines printer colours ++ [[]] := by
  rw [Outline.written, String.toList_ofList]
  refine Text.splitOn_lines fun line hline => ?_
  rcases List.mem_append.mp hline with hline | hline
  · exact h.notMem_titleLines line hline
  · obtain ⟨item, -, hline⟩ := List.mem_flatMap.mp hline
    exact h.notMem_written item line hline

/-! ## Lines that are printed as they are -/

/-- A label with a number in decimal behind it is a plain line. -/
theorem isPlainLine_append_toString {label : String} (h : IsVisible label.toList) (n : Nat) :
    IsPlainLine (label ++ toString n).toList := by
  have hne : (toString n).toList ≠ [] := by
    rw [Nat.toString_eq_repr, Nat.repr_eq_ofList_toDigits, String.toList_ofList]
    exact Nat.toDigits_ne_nil
  rw [String.toList_append]
  exact (isPlainLine_toString n).append hne h

/-- A number with a label in front of it and a sign behind it is a plain line. -/
theorem isPlainLine_number {label sign : String} (hlabel : IsVisible label.toList)
    (hsign : IsPlainLine sign.toList) (hne : sign.toList ≠ []) (x : Binary64) :
    IsPlainLine (label ++ x.text ++ sign).toList := by
  rw [String.toList_append, String.toList_append]
  exact hsign.append hne (hlabel.append (isVisible_number x))

/-- The items at the top take one line each. -/
theorem Outline.isPlainLine_figures (outline : Outline) :
    ∀ item ∈ outline.figures, IsPlainLine item.text.toList := by
  have hcount (label : String) (n : Nat) (h : label.toList.all (fun c => 0x20 ≤ c.toNat) = true) :=
    isPlainLine_append_toString (isVisible_literal label h) n
  have hnumber (label sign : String) (hlabel : label.toList.all (fun c => 0x20 ≤ c.toNat) = true)
      (hsign : IsPlainLine sign.toList) (hne : sign.toList ≠ []) :=
    isPlainLine_number (isVisible_literal label hlabel) hsign hne
  have herrors : ∀ item ∈ (if outline.tally.count .error = 0 then []
      else [⟨some (.colour .red), "  ⚡ Errors: " ++ toString (outline.tally.count .error)⟩] :
        List Item), IsPlainLine item.text.toList := by
    split
    · exact nofun
    · exact List.forall_mem_singleton.mpr (hcount _ _ (by decide))
  simp only [figures, Tally.items, List.forall_mem_append, List.forall_mem_cons, List.not_mem_nil,
    false_implies, implies_true, and_true]
  exact ⟨⟨⟨hnumber _ _ (by decide) (isPlainLine_literal _ (by decide) (by decide)) (by decide) _,
    isPlainLine_nil⟩, ⟨⟨hcount _ _ (by decide), hcount _ _ (by decide), hcount _ _ (by decide),
    hcount _ _ (by decide), hcount _ _ (by decide)⟩, herrors⟩, isPlainLine_nil,
    hcount _ _ (by decide)⟩,
    hnumber _ _ (by decide) (isPlainLine_literal _ (by decide) (by decide)) (by decide) _⟩

/-- Both verdicts are announced on one line without controls. -/
theorem Verdict.isPlainLine_item (verdict : Verdict) : IsPlainLine verdict.item.text.toList := by
  cases verdict <;> exact isPlainLine_literal _ (by decide) (by decide)

/-- **The lines of a report**: its title, its figures, its sections as the printer sets them, and its
verdict. -/
theorem Outline.lines_eq {printer : Printer} (h : printer.IsFaithful) (outline : Outline)
    (colours : Bool) :
    outline.lines printer colours = printer.titleLines colours ++
      (outline.figures ++ [⟨none, ""⟩] : List Item).map (Item.line colours) ++
      (outline.sections.flatMap SectionEntry.items).flatMap (Item.written printer colours) ++
      [outline.verdict.item.line colours] := by
  have hfigures : ∀ item ∈ outline.figures ++ [⟨none, ""⟩], IsPlainLine item.text.toList :=
    List.forall_mem_append.mpr ⟨outline.isPlainLine_figures,
      List.forall_mem_singleton.mpr isPlainLine_nil⟩
  rw [lines, items, List.flatMap_append, List.flatMap_append, h.flatMap_written_eq hfigures,
    List.flatMap_singleton, h.written_eq outline.verdict.isPlainLine_item, List.append_assoc,
    List.append_assoc, List.append_assoc]

/-! ## Which reports there are -/

/-- The numbers of a place that are shown have no more digits than the machine writes. -/
def Location.IsShort (location : Location) : Prop :=
  location.line.IsBelow (10 ^ digitLimit) ∧
    (location.line ≠ .null → location.column.IsBelow (10 ^ digitLimit))

/-- A result all of whose places can be shown. -/
def Result.IsShort (result : Result) : Prop :=
  ∀ issue ∈ result.issues, ∀ location ∈ issue.location, location.IsShort

/-- An integer is written just when it has no more digits than the limit allows. -/
theorem exists_decimal_iff {limit : Nat} {n : Int} :
    (∃ text, decimal (some limit) n = .ok text) ↔ n.natAbs < 10 ^ limit := by
  simp only [decimal_eq_ok_iff, Option.mem_some_iff, forall_eq', exists_and_left, exists_eq,
    and_true]

/-- A number that may be missing is shown just when it has no more digits than the machine writes. -/
theorem exists_shown_iff {value : Value} (h : value.IsOptional Value.IsInteger) :
    (∃ text, value.shown = .ok text) ↔ value.IsBelow (10 ^ digitLimit) := by
  rcases h with rfl | ⟨n, rfl⟩ | ⟨b, rfl⟩
  · exact iff_of_true ⟨_, rfl⟩ .null
  · rw [Json.isBelow_int_iff, ← exists_decimal_iff]
    exact Iff.rfl
  · exact iff_of_true ⟨_, rfl⟩ (.bool b)

/-- A place is shown just when its numbers are short. -/
theorem Location.WellTyped.exists_shownAs_iff {location : Location} (h : location.WellTyped) :
    (∃ place, location.ShownAs place) ↔ location.IsShort := by
  obtain ⟨file, line, column⟩ := location
  obtain ⟨⟨path, rfl⟩, hline, hcolumn⟩ := h
  dsimp only at hline hcolumn
  rw [IsShort, ← exists_shown_iff hline, ← exists_shown_iff hcolumn]
  constructor
  · rintro ⟨_, h⟩
    cases h with
    | file => exact ⟨⟨_, rfl⟩, fun hknown => absurd rfl hknown⟩
    | line _ _ hline => exact ⟨⟨_, hline⟩, fun _ => ⟨_, rfl⟩⟩
    | column _ _ _ hline hposition => exact ⟨⟨_, hline⟩, fun _ => ⟨_, hposition⟩⟩
  · rintro ⟨⟨number, hnumber⟩, hposition⟩
    by_cases hnone : line = .null
    · rw [hnone]
      exact ⟨_, .file path column⟩
    · by_cases hshown : column = .null
      · rw [hshown]
        exact ⟨_, .line hnone rfl hnumber⟩
      · obtain ⟨position, hposition⟩ := hposition hnone
        exact ⟨_, .column hnone hshown rfl hnumber hposition⟩

/-- The code of a well-typed issue can always be listed. -/
theorem Issue.WellTyped.exists_codeListedAs {issue : Issue} (h : issue.WellTyped)
    (verbose : Bool) : ∃ code, CodeListedAs verbose issue.code code := by
  cases verbose with
  | false => exact ⟨none, .brief _⟩
  | true =>
    rcases h.code with hnull | ⟨code, hcode⟩
    · rw [hnull]
      exact ⟨none, .missing⟩
    · rw [hcode]
      exact ⟨_, .full code⟩

/-- A well-typed issue can be listed iff its place has numbers short enough to spell. -/
theorem Issue.WellTyped.exists_listedAs_iff {issue : Issue} (h : issue.WellTyped)
    (verbose : Bool) :
    (∃ entry, issue.ListedAs verbose entry) ↔ ∀ location ∈ issue.location, location.IsShort := by
  have hplaces : (∃ place, Option.Rel Location.ShownAs issue.location place) ↔
      ∀ location ∈ issue.location, location.IsShort :=
    exists_rel_iff.trans (forall₂_congr fun location hlocation =>
      (h.location location hlocation).exists_shownAs_iff)
  rw [← hplaces]
  constructor
  · rintro ⟨entry, hentry⟩
    exact ⟨_, hentry.place⟩
  · rintro ⟨place, hplace⟩
    obtain ⟨code, hcode⟩ := h.exists_codeListedAs verbose
    obtain ⟨message, hmessage⟩ := h.message
    obtain ⟨recommendation, hrecommendation⟩ := h.recommendation
    exact ⟨⟨message, place, _, recommendation, code⟩,
      ⟨by rw [hmessage]; rfl, hplace, rfl, by rw [hrecommendation]; rfl, hcode⟩⟩

/-- A well-typed result can be listed iff all its issues can. -/
theorem Result.WellTyped.exists_listedAs_iff {result : Result} (h : result.WellTyped)
    (verbose : Bool) : (∃ entry, result.ListedAs verbose entry) ↔ result.IsShort := by
  have hissues := exists_forall₂_iff.trans
    (forall₂_congr fun issue hissue => (h.issues issue hissue).exists_listedAs_iff verbose)
  rw [IsShort, ← hissues]
  constructor
  · rintro ⟨entry, hentry⟩
    exact ⟨_, hentry.issues⟩
  · rintro ⟨issues, hissues⟩
    obtain ⟨analyzerId, hid⟩ := h.analyzerId
    obtain ⟨message, hmessage⟩ := h.message
    exact ⟨⟨analyzerId, message, issues⟩, ⟨by rw [hid]; rfl, by rw [hmessage]; rfl, hissues⟩⟩

namespace Collection

variable {collection : Collection} {verbose : Bool}

/-- The results that a report lists, in order. -/
def listed (collection : Collection) (verbose : Bool) : List Result :=
  collection.byStatus .failed ++ collection.byStatus .warning ++ collection.byStatus .error ++
    if verbose then collection.byStatus .passed else []

/-- The sections together hold the listed results, section after section. -/
theorem flatMap_sections :
    ((sections verbose).flatMap fun part => collection.byStatus part.status) =
      collection.listed verbose := by
  cases verbose <;> simp [sections, listed]

/-- What is listed belongs to the collection. -/
theorem mem_of_mem_listed {result : Result} (h : result ∈ collection.listed verbose) :
    result ∈ collection.results := by
  rw [← flatMap_sections] at h
  obtain ⟨part, -, hmem⟩ := List.mem_flatMap.mp h
  exact List.mem_of_mem_filter hmem

/-- **Which reports there are.** A collection of well-typed results whose execution times add up is
reported unless the machine cannot write a number of a place that is to be listed. -/
theorem exists_toConsole_iff {total : Binary64}
    (htyped : ∀ result ∈ collection.results, result.WellTyped)
    (htotal : collection.totalExecutionTime = .ok total) (printer : Printer)
    (colours verbose : Bool) :
    (∃ text, collection.toConsole printer colours verbose = .ok text) ↔
      ∀ result ∈ collection.listed verbose, result.IsShort := by
  have hsection (part : Section) : (∃ entry, part.ListedAs verbose collection entry) ↔
      ∀ result ∈ collection.byStatus part.status, result.IsShort := by
    have hentries := exists_forall₂_iff.trans (forall₂_congr
      fun result (hresult : result ∈ collection.byStatus part.status) =>
        (htyped result (List.mem_of_mem_filter hresult)).exists_listedAs_iff verbose)
    rw [← hentries]
    exact ⟨fun ⟨_, hentry⟩ => ⟨_, hentry.entries⟩, fun ⟨entries, hentries⟩ =>
      ⟨⟨_, _, _, entries⟩, ⟨rfl, rfl, rfl, hentries⟩⟩⟩
  have hsections := exists_forall₂_iff.trans
    (forall₂_congr fun part (_ : part ∈ sections verbose) => hsection part)
  rw [← flatMap_sections, List.forall_mem_flatMap, ← hsections]
  simp only [toConsole_eq_ok_iff]
  constructor
  · rintro ⟨_, outline, houtline, -⟩
    exact ⟨_, houtline.sections⟩
  · rintro ⟨parts, hparts⟩
    exact ⟨_, ⟨_, _, _, parts, _⟩, ⟨rfl, rfl, ⟨total, htotal, rfl⟩, hparts, rfl⟩, rfl⟩

end Collection

end PhpAudit.Report
