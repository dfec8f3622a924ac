import PhpAudit.Proofs.Data.Record
import PhpAudit.Proofs.Report.Typed

/-!
# Records are read back

Issues and descriptions are written without what they do not have, and there are three ways of not
having a field: it is null, it is an empty list, or it counts as absent. Reading restores what was
left out from three kinds of defaults. `Issue.ofValue_toValue` and `Description.ofValue_toValue` say
that the two fit together.

An issue may also come back from a text format, with the numbers of its lines spelled out. It is
read back then too, as long as no number has more digits than may be read
(`Issue.ofValue_toTextKeyed`), and only then (`Issue.hasReadableNumbers_of_ofValue`).
-/

namespace PhpAudit

open Data Number

/-! ## Snippets -/

namespace Snippet

/-- A line with a new number is put at the end. -/
theorem put_of_notMem {number : Int} {text : Value} {lines : NumberedLines}
    (h : number ∉ lines.map Prod.fst) :
    NumberedLines.put number text lines = lines ++ [(number, text)] := by
  induction lines with
  | nil => rfl
  | cons line rest ih =>
    rw [List.map_cons, List.mem_cons, not_or] at h
    rw [NumberedLines.put, if_neg (Ne.symm h.1), ih h.2, List.cons_append]

/-- Lines with different numbers are read one after the other, however their numbers are written,
as long as each is read as what it is. -/
theorem readLines_map (before : NumberedLines) {lines : NumberedLines} (key : Int → Key)
    (hkeys : ∀ line ∈ lines, (key line.1).toInt = .ok line.1)
    (hnumbers : ((before ++ lines).map Prod.fst).Nodup) :
    readLines before (lines.map fun line => (key line.1, line.2)) = .ok (before ++ lines) := by
  induction lines generalizing before with
  | nil => rw [List.append_nil]; rfl
  | cons line rest ih =>
    have hnew : line.1 ∉ before.map Prod.fst := by
      rw [List.map_append, List.map_cons] at hnumbers
      exact fun hmem => List.disjoint_of_nodup_append hnumbers hmem List.mem_cons_self
    have hrest := ih (before ++ [line])
      (fun other hother => hkeys other (List.mem_cons_of_mem _ hother)) (by simpa using hnumbers)
    rw [List.map_cons, readLines, hkeys line List.mem_cons_self]
    change readLines (NumberedLines.put line.1 line.2 before) _ = _
    rw [put_of_notMem hnew, hrest, List.append_assoc, List.singleton_append]

/-- A snippet as a value, with the numbers of its lines written as keys of some form. -/
def toValueBy (key : Int → Key) (snippet : Snippet) : Value :=
  .record [
    ("file", snippet.file),
    ("target_line", snippet.targetLine),
    ("lines", .dict (snippet.lines.map fun line => (key line.1, line.2))),
    ("context_lines", snippet.contextLines)]

/-- A snippet is read back from its value if the numbers of its lines are. -/
theorem ofValue_toValueBy {snippet : Snippet} {key : Int → Key}
    (hkeys : ∀ line ∈ snippet.lines, (key line.1).toInt = .ok line.1)
    (hnumbers : (snippet.lines.map Prod.fst).Nodup) :
    ofValue (snippet.toValueBy key) = .ok snippet := by
  have hlines : linesOfValue (.dict (snippet.lines.map fun line => (key line.1, line.2))) =
      .ok snippet.lines := by
    have hread := readLines_map [] key hkeys hnumbers
    rw [linesOfValue]
    split
    next habsent =>
      rw [Value.isPresent, Bool.not_not, List.isEmpty_iff, List.map_eq_nil_iff] at habsent
      rw [habsent]
    next => exact hread
  change (linesOfValue (.dict (snippet.lines.map fun line => (key line.1, line.2))) >>=
    fun lines => _) = _
  rw [hlines]
  rfl

/-- Lines are read only if the number of each is. -/
theorem toInt_of_readLines {lines result : NumberedLines} {entries : Entries}
    (h : readLines lines entries = .ok result) {entry : Key × Value} (hmem : entry ∈ entries) :
    ∃ n, entry.1.toInt = .ok n := by
  induction entries generalizing lines with
  | nil => cases hmem
  | cons first rest ih =>
    rw [readLines, bind_eq_ok] at h
    obtain ⟨n, hfirst, hrest⟩ := h
    rcases List.mem_cons.mp hmem with rfl | hmem
    · exact ⟨n, hfirst⟩
    · exact ih hrest hmem

/-- A snippet is read only if the number of each line is. -/
theorem toInt_of_ofValue {snippet result : Snippet} {key : Int → Key}
    (h : ofValue (snippet.toValueBy key) = .ok result) {line : Int × Value}
    (hmem : line ∈ snippet.lines) : ∃ n, (key line.1).toInt = .ok n := by
  change (linesOfValue (.dict (snippet.lines.map fun line => (key line.1, line.2))) >>=
    fun lines => _) = _ at h
  obtain ⟨lines, hlines, -⟩ := bind_eq_ok.mp h
  have hentry : (key line.1, line.2) ∈ snippet.lines.map fun line => (key line.1, line.2) :=
    List.mem_map.mpr ⟨line, hmem, rfl⟩
  rw [linesOfValue, if_neg ?_] at hlines
  · exact toInt_of_readLines hlines hentry
  · rw [Value.isPresent, Bool.not_not, List.isEmpty_iff]
    exact List.ne_nil_of_mem hentry

/-- A snippet whose lines have their numbers spelled out. -/
theorem mapField_withTextKeys (snippet : Snippet) :
    snippet.toValue.mapField "lines" Value.withTextKeys =
      snippet.toValueBy fun n => .text (Integer.text n) := by
  simp [toValue, toValueBy, Value.record, Entries.ofFields, Value.mapField,
    Entries.mapField, Value.withTextKeys, Key.inText, Function.comp_def]

end Snippet

namespace Report

/-! ## Names of vocabularies -/

theorem Severity.ofValue_text (severity : Severity) :
    Severity.ofValue (.text severity.text) = .ok severity := by
  cases severity <;> rfl

theorem Category.ofValue_text (category : Category) :
    Category.ofValue (.text category.text) = .ok category := by
  cases category <;> rfl

/-! ## Records without nulls -/

/-- The entries of a record that is written without what is null. -/
def withoutNulls (fields : List (String × Value)) : Entries :=
  Entries.ofFields (fields.filter fun field => !field.2.isNull)

section withoutNulls

variable {fields : List (String × Value)} {name : String} {value : Value}

/-- A field that is left out when it is null is null when it is left out. -/
theorem eq_null_of_not_isNull (h : (!value.isNull) = false) : value = .null := by
  cases value <;> first | rfl | cases h

/-- A text is there. -/
theorem require_withoutNulls (hnames : (fields.map Prod.fst).Nodup) (hmem : (name, value) ∈ fields)
    (htext : value.IsText) : (withoutNulls fields).require name = .ok value := by
  obtain ⟨s, rfl⟩ := htext
  exact require_ofFields hnames hmem rfl

/-- What is not there is null. -/
theorem getOrNull_withoutNulls (hnames : (fields.map Prod.fst).Nodup)
    (hmem : (name, value) ∈ fields) : (withoutNulls fields).getOrNull name = value :=
  getOrNull_ofFields hnames hmem eq_null_of_not_isNull

end withoutNulls

/-! ## Places -/

/-- The fields of a place, before any is left out. -/
def Location.fields (location : Location) : List (String × Value) :=
  [("file", location.file), ("line", location.line), ("column", location.column)]

/-- A place that has a file is read back from its value. -/
theorem Location.ofValue_toValue {location : Location} (h : location.file.IsText) :
    Location.ofValue location.toValue = .ok location := by
  have hnames : (location.fields.map Prod.fst).Nodup := by simp [fields]
  have hline : (withoutNulls location.fields).getOrNull "line" = location.line :=
    getOrNull_withoutNulls hnames (by simp [fields])
  have hcolumn : (withoutNulls location.fields).getOrNull "column" = location.column :=
    getOrNull_withoutNulls hnames (by simp [fields])
  change Location.ofEntries (withoutNulls location.fields) = _
  rw [Location.ofEntries, require_withoutNulls hnames (by simp [fields]) h, hline, hcolumn]
  rfl

/-- A place that has a file is not taken for one that is absent. -/
theorem Location.ofValue?_toValue {location : Location} (h : location.file.IsText) :
    Location.ofValue? location.toValue = .ok (some location) := by
  have hpresent : location.toValue.isPresent = true := by
    obtain ⟨path, hpath⟩ := h
    simp [Location.toValue, Value.record, Value.isPresent, Entries.ofFields, hpath, Value.isNull]
  rw [Location.ofValue?, if_pos hpresent, Location.ofValue_toValue h]
  rfl

/-! ## Issues -/

/-- A field that is left out when it is null or an empty list is null when it is left out, unless it
is such a list. -/
theorem eq_null_of_isOmitted {value : Value} (hlist : value ≠ .list [])
    (h : (!Issue.isOmitted value) = false) : value = .null := by
  match value with
  | .null => rfl
  | .list [] => exact absurd rfl hlist
  | .list (_ :: _) => cases h

/-- The fields of an issue, before any is left out. -/
def Issue.fields (issue : Issue) : List (String × Value) := [
  ("message", issue.message),
  ("location", (issue.location.map Location.toValue).getD .null),
  ("severity", .text issue.severity.text),
  ("recommendation", issue.recommendation),
  ("code", issue.code),
  ("metadata", issue.metadata.orElse .null),
  ("code_snippet", (issue.snippet.map Snippet.toValue).getD .null)]

/-- An issue is read off entries field by field. -/
theorem Issue.ofEntries_eq {entries : Entries} {issue : Issue}
    (hmessage : entries.require "message" = .ok issue.message)
    (hlocation : Location.ofValue? (entries.getOrNull "location") = .ok issue.location)
    (hseverity : entries.require "severity" = .ok (.text issue.severity.text))
    (hrecommendation : entries.require "recommendation" = .ok issue.recommendation)
    (hcode : entries.getOrNull "code" = issue.code)
    (hmetadata : (entries.getOrNull "metadata").orElse (.dict []) = issue.metadata)
    (hsnippet : snippetOfValue? (entries.getOrNull "code_snippet") = .ok issue.snippet) :
    Issue.ofEntries entries = .ok issue := by
  rw [Issue.ofEntries, hmessage, hlocation, hseverity, hrecommendation, hcode, hmetadata, hsnippet]
  change (Severity.ofValue (.text issue.severity.text) >>= fun severity => _) = _
  rw [Severity.ofValue_text]
  rfl

/-- The entries of an issue's value, with the value of its snippet replaced. -/
def Issue.entriesBy (f : Value → Value) (issue : Issue) : Entries :=
  Entries.mapField "code_snippet" f
    (Entries.ofFields (issue.fields.filter fun field => !isOmitted field.2))

section entriesBy

variable {issue : Issue} {f : Value → Value} {name : String} {value : Value}

theorem Issue.nodup_fields (issue : Issue) : (issue.fields.map Prod.fst).Nodup := by
  simp [Issue.fields]

/-- A text is not left out. -/
theorem Issue.require_entriesBy (hname : name ≠ "code_snippet")
    (hmem : (name, value) ∈ issue.fields) (htext : value.IsText) :
    (issue.entriesBy f).require name = .ok value := by
  obtain ⟨s, rfl⟩ := htext
  rw [Issue.entriesBy, require_mapField hname, require_ofFields issue.nodup_fields hmem rfl]

/-- What is left out is null, as no field but a list of nothing is left out for another reason. -/
theorem Issue.getOrNull_entriesBy (hname : name ≠ "code_snippet")
    (hmem : (name, value) ∈ issue.fields) (hlist : value ≠ .list []) :
    (issue.entriesBy f).getOrNull name = value := by
  rw [Issue.entriesBy, getOrNull_mapField hname,
    getOrNull_ofFields issue.nodup_fields hmem (eq_null_of_isOmitted hlist)]

/-- The snippet is what is replaced, if there is one. -/
theorem Issue.getOrNull_snippet (issue : Issue) (f : Value → Value) :
    (issue.entriesBy f).getOrNull "code_snippet" =
      (issue.snippet.map fun snippet => f snippet.toValue).getD .null := by
  have hmem : ("code_snippet", (issue.snippet.map Snippet.toValue).getD .null) ∈ issue.fields := by
    simp [Issue.fields]
  rw [Issue.entriesBy, Entries.getOrNull, get?_mapField, if_pos rfl,
    get?_ofFields issue.nodup_fields hmem]
  cases issue.snippet with
  | none => rfl
  | some snippet => rfl

end entriesBy

/-- An issue is read back from its value, and from any value that differs only in a snippet that is
read back itself. -/
theorem Issue.ofValue_mapField {issue : Issue} (h : issue.WellTyped) {f : Value → Value}
    (hsnippet : ∀ snippet ∈ issue.snippet,
      snippetOfValue? (f snippet.toValue) = .ok (some snippet)) :
    Issue.ofValue (issue.toValue.mapField "code_snippet" f) = .ok issue := by
  change Issue.ofEntries (issue.entriesBy f) = _
  refine Issue.ofEntries_eq (Issue.require_entriesBy (by decide) (by simp [fields]) h.message)
    ?location (Issue.require_entriesBy (by decide) (by simp [fields]) ⟨_, rfl⟩)
    (Issue.require_entriesBy (by decide) (by simp [fields]) h.recommendation)
    (Issue.getOrNull_entriesBy (by decide) (by simp [fields]) ?code) ?metadata ?snippet
  case location =>
    have hmem : ("location", (issue.location.map Location.toValue).getD .null) ∈ issue.fields := by
      simp [fields]
    rw [Issue.getOrNull_entriesBy (by decide) hmem ?_]
    · cases hcase : issue.location with
      | none => rfl
      | some location => exact Location.ofValue?_toValue (h.location location hcase).file
    · cases issue.location <;> exact nofun
  case code =>
    rcases h.code with hcode | ⟨s, hcode⟩ <;> rw [hcode] <;> exact nofun
  case metadata =>
    -- Empty metadata is written as null, which reading takes for empty metadata.
    obtain ⟨entries, hentries⟩ := h.metadata
    have hmem : ("metadata", issue.metadata.orElse .null) ∈ issue.fields := by simp [fields]
    rw [Issue.getOrNull_entriesBy (by decide) hmem ?_, hentries]
    · cases entries <;> rfl
    · rw [hentries]
      cases entries <;> exact nofun
  case snippet =>
    rw [Issue.getOrNull_snippet]
    cases hcase : issue.snippet with
    | none => rfl
    | some snippet => exact hsnippet snippet hcase

/-! ## Numbers of lines spelled out -/

/-- A snippet in an issue is read as a snippet that stands alone. -/
theorem Issue.snippetOfValue?_toValueBy (snippet : Snippet) (key : Int → Key) :
    snippetOfValue? (snippet.toValueBy key) =
      Snippet.ofValue (snippet.toValueBy key) >>= fun snippet => .ok (some snippet) := rfl

/-- An issue as a text format leaves it: the numbers of its lines are spelled out. -/
def Issue.toTextKeyed (issue : Issue) : Value :=
  issue.toValue.mapField "code_snippet" (Value.mapField "lines" Value.withTextKeys)

/-- No line has a number with more digits than may be read. -/
def Issue.HasReadableNumbers (issue : Issue) : Prop :=
  ∀ snippet ∈ issue.snippet, ∀ line ∈ snippet.lines, line.1.natAbs < 10 ^ digitLimit

/-- An issue is read back from its value. -/
theorem Issue.ofValue_toValue {issue : Issue} (h : issue.WellTyped) :
    Issue.ofValue issue.toValue = .ok issue := by
  rw [← mapField_id "code_snippet" issue.toValue]
  refine Issue.ofValue_mapField h fun snippet hmem => ?_
  change snippetOfValue? (snippet.toValueBy .int) = _
  rw [Issue.snippetOfValue?_toValueBy,
    Snippet.ofValue_toValueBy (fun _ _ => rfl) (h.snippet snippet hmem).numbers]
  rfl

/-- An issue is read back with the numbers of its lines spelled out. -/
theorem Issue.ofValue_toTextKeyed {issue : Issue} (h : issue.WellTyped)
    (hnumbers : issue.HasReadableNumbers) : Issue.ofValue issue.toTextKeyed = .ok issue := by
  refine Issue.ofValue_mapField h fun snippet hmem => ?_
  rw [Snippet.mapField_withTextKeys, Issue.snippetOfValue?_toValueBy,
    Snippet.ofValue_toValueBy (fun line hline => toInt_text (hnumbers snippet hmem line hline))
      (h.snippet snippet hmem).numbers]
  rfl

/-- An issue is read at all only if the numbers of its lines are. -/
theorem Issue.hasReadableNumbers_of_ofValue {issue result : Issue}
    (h : Issue.ofValue issue.toTextKeyed = .ok result) : issue.HasReadableNumbers := by
  intro snippet hmem line hline
  change Issue.ofEntries (issue.entriesBy (Value.mapField "lines" Value.withTextKeys)) = _ at h
  simp only [Issue.ofEntries, bind_eq_ok] at h
  -- Reading goes through the fields in turn; the snippet is the last one that can fail.
  obtain ⟨-, -, -, -, -, -, -, -, -, -, read, hread, -⟩ := h
  rw [Issue.getOrNull_snippet, Option.mem_def.mp hmem, Option.map_some, Option.getD_some,
    Snippet.mapField_withTextKeys, Issue.snippetOfValue?_toValueBy, bind_eq_ok] at hread
  obtain ⟨_, hsnippet, -⟩ := hread
  obtain ⟨n, hn⟩ := Snippet.toInt_of_ofValue hsnippet hline
  by_contra hlong
  rw [toInt_text_of_le (Nat.not_lt.mp hlong)] at hn
  cases hn

/-! ## Descriptions -/

/-- The fields of a description, before any is left out. -/
def Description.fields (about : Description) : List (String × Value) := [
  ("id", about.id),
  ("name", about.name),
  ("description", about.description),
  ("category", .text about.category.text),
  ("severity", .text about.severity.text),
  ("tags", (Value.list about.tags).orElse .null),
  ("docs_url", about.docsUrl)]

/-- Tags are read back, also when there are none. -/
theorem Description.tagsOfValue_orElse (tags : List Value) :
    tagsOfValue ((Value.list tags).orElse .null) = .ok tags := by
  cases tags <;> rfl

/-- A description is read back from its value. -/
theorem Description.ofValue_toValue {about : Description} (h : about.WellTyped) :
    Description.ofValue about.toValue = .ok about := by
  have hnames : (about.fields.map Prod.fst).Nodup := by simp [fields]
  have htags : (withoutNulls about.fields).getOrNull "tags" = (Value.list about.tags).orElse .null :=
    getOrNull_withoutNulls hnames (by simp [fields])
  have hdocsUrl : (withoutNulls about.fields).getOrNull "docs_url" = about.docsUrl :=
    getOrNull_withoutNulls hnames (by simp [fields])
  change Description.ofEntries (withoutNulls about.fields) = _
  rw [Description.ofEntries, require_withoutNulls hnames (by simp [fields]) h.id,
    require_withoutNulls hnames (by simp [fields]) h.name,
    require_withoutNulls hnames (by simp [fields]) h.description,
    require_withoutNulls hnames (by simp [fields]) ⟨about.category.text, rfl⟩,
    require_withoutNulls hnames (by simp [fields]) ⟨about.severity.text, rfl⟩, htags, hdocsUrl,
    Description.tagsOfValue_orElse]
  change (Category.ofValue (.text about.category.text) >>= fun category =>
    Severity.ofValue (.text about.severity.text) >>= fun severity => _) = _
  rw [Category.ofValue_text, Severity.ofValue_text]
  rfl

/-! ## Both ways -/

/-- What becomes of a value that is read as an issue and written again. -/
def Issue.rewritten (value : Value) : Except Fault Value := (Issue.ofValue value).map Issue.toValue

/-- What becomes of a value that is read as a description and written again. -/
def Description.rewritten (value : Value) : Except Fault Value :=
  (Description.ofValue value).map Description.toValue

/-- **Issues and descriptions are read back.** An issue comes back from its value, and also with the
numbers of its lines spelled out, which takes no more than that none has more digits than may be
read. A description comes back from its value. So what has been read and written again once stays
as it is when it is read and written again. -/
theorem read_back :
    (∀ issue : Issue, issue.WellTyped →
      Issue.ofValue issue.toValue = .ok issue ∧
      Issue.rewritten issue.toValue = .ok issue.toValue ∧
      (Issue.ofValue issue.toTextKeyed = .ok issue ↔ issue.HasReadableNumbers) ∧
      (issue.HasReadableNumbers → Issue.rewritten issue.toTextKeyed = .ok issue.toValue)) ∧
    ∀ about : Description, about.WellTyped →
      Description.ofValue about.toValue = .ok about ∧
      Description.rewritten about.toValue = .ok about.toValue := by
  refine ⟨fun issue h => ⟨Issue.ofValue_toValue h, ?_, ?_, fun hnumbers => ?_⟩, fun about h =>
    ⟨Description.ofValue_toValue h, ?_⟩⟩
  · rw [Issue.rewritten, Issue.ofValue_toValue h]; rfl
  · exact ⟨Issue.hasReadableNumbers_of_ofValue, Issue.ofValue_toTextKeyed h⟩
  · rw [Issue.rewritten, Issue.ofValue_toTextKeyed h hnumbers]; rfl
  · rw [Description.rewritten, Description.ofValue_toValue h]; rfl

/-- The number of the only line of an issue is the one that decides. -/
theorem issueWithLine_hasReadableNumbers (number : Int) :
    (issueWithLine number).HasReadableNumbers ↔ number.natAbs < 10 ^ digitLimit := by
  simp [Issue.HasReadableNumbers, issueWithLine]

/-- A description with tags and without a page of its own. -/
def taggedDescription : Description where
  id := .text "dynamic-code"
  name := .text "Dynamic code"
  description := .text "Finds texts that are run as code."
  category := .security
  severity := .critical
  tags := [.text "eval", .text ""]

theorem taggedDescription_wellTyped : taggedDescription.WellTyped where
  id := ⟨_, rfl⟩
  name := ⟨_, rfl⟩
  description := ⟨_, rfl⟩
  tags := by
    rintro tag (_ | ⟨_, _ | ⟨_, ⟨⟩⟩⟩) <;> exact ⟨_, rfl⟩
  docsUrl := .inl rfl

/-- An issue at line 7 and a description are read back. -/
theorem read_back_lineSeven :
    (issueWithLine 7).WellTyped ∧ (issueWithLine 7).HasReadableNumbers ∧
    taggedDescription.WellTyped ∧
    Issue.ofValue (issueWithLine 7).toValue = .ok (issueWithLine 7) ∧
    Issue.ofValue (issueWithLine 7).toTextKeyed = .ok (issueWithLine 7) ∧
    Issue.rewritten (issueWithLine 7).toTextKeyed = .ok (issueWithLine 7).toValue ∧
    Description.ofValue taggedDescription.toValue = .ok taggedDescription := by
  have hnumbers : (issueWithLine 7).HasReadableNumbers :=
    (issueWithLine_hasReadableNumbers 7).mpr
      (Nat.lt_of_lt_of_le (by decide : 7 < 10 ^ 1) (Nat.pow_le_pow_right (by decide) (by decide)))
  obtain ⟨hissue, -, htext, hrewritten⟩ := read_back.1 _ (issueWithLine_wellTyped 7)
  exact ⟨issueWithLine_wellTyped 7, hnumbers, taggedDescription_wellTyped, hissue,
    htext.mpr hnumbers, hrewritten hnumbers, (read_back.2 _ taggedDescription_wellTyped).1⟩

/-- An issue at the line whose number is the least with too many digits is not read back when the
number is spelled out, though all its fields have their declared types. -/
theorem issueWithLine_not_read_back :
    (issueWithLine (10 ^ digitLimit : Nat)).WellTyped ∧
    Issue.ofValue (issueWithLine (10 ^ digitLimit : Nat)).toTextKeyed ≠
      .ok (issueWithLine (10 ^ digitLimit : Nat)) := by
  refine ⟨issueWithLine_wellTyped _, fun h => ?_⟩
  have hnumbers := (issueWithLine_hasReadableNumbers _).mp (Issue.hasReadableNumbers_of_ofValue h)
  rw [Int.natAbs_natCast] at hnumbers
  exact absurd hnumbers (Nat.lt_irrefl _)

end Report

end PhpAudit
