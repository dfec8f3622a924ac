import PhpAudit.Report.Description
import PhpAudit.Report.Result

/-!
# Fields of their declared types

Records only pass most of their fields on, so a field can hold any value. What is said here of a
record is that each field holds a value of the type that is declared for it, and no more than that.
A truth value counts as an integer.
-/

namespace PhpAudit

open Data

namespace Data.Value

/-- A text. -/
def IsText (value : Value) : Prop := ∃ s, value = .text s

/-- An integer, or a truth value, which counts as one. -/
def IsInteger (value : Value) : Prop := (∃ n, value = .int n) ∨ ∃ b, value = .bool b

/-- A dictionary. -/
def IsDict (value : Value) : Prop := ∃ entries, value = .dict entries

/-- A value of a type, or null. -/
def IsOptional (type : Value → Prop) (value : Value) : Prop := value = .null ∨ type value

end Data.Value

/-- A snippet with fields of their declared types. A number stands for one line only. -/
structure Snippet.WellTyped (snippet : Snippet) : Prop where
  file : snippet.file.IsText
  targetLine : snippet.targetLine.IsInteger
  lines : ∀ line ∈ snippet.lines, line.2.IsText
  numbers : (snippet.lines.map Prod.fst).Nodup
  contextLines : snippet.contextLines.IsInteger

namespace Report

/-- A place with fields of their declared types. -/
structure Location.WellTyped (location : Location) : Prop where
  file : location.file.IsText
  line : location.line.IsOptional Value.IsInteger
  column : location.column.IsOptional Value.IsInteger

/-- An issue with fields of their declared types. -/
structure Issue.WellTyped (issue : Issue) : Prop where
  message : issue.message.IsText
  location : ∀ location ∈ issue.location, location.WellTyped
  recommendation : issue.recommendation.IsText
  code : issue.code.IsOptional Value.IsText
  metadata : issue.metadata.IsDict
  snippet : ∀ snippet ∈ issue.snippet, snippet.WellTyped

/-- A result with fields of their declared types. What an execution time must be, its total says. -/
structure Result.WellTyped (result : Result) : Prop where
  analyzerId : result.analyzerId.IsText
  message : result.message.IsText
  issues : ∀ issue ∈ result.issues, issue.WellTyped
  metadata : result.metadata.IsDict

/-- A description with fields of their declared types. -/
structure Description.WellTyped (about : Description) : Prop where
  id : about.id.IsText
  name : about.name.IsText
  description : about.description.IsText
  tags : ∀ tag ∈ about.tags, tag.IsText
  docsUrl : about.docsUrl.IsOptional Value.IsText

/-! ## An issue -/

/-- An issue whose snippet has one line, which has the given number. -/
def issueWithLine (number : Int) : Issue where
  message := .text "eval() runs any text as code"
  location := some ⟨.text "app/Jobs/Run.php", .int 7, .null⟩
  severity := .critical
  recommendation := .text "Call the function itself."
  code := .text ""
  snippet := some ⟨.text "app/Jobs/Run.php", .int 7, [(number, .text "eval($job);")], .int 3⟩

theorem issueWithLine_wellTyped (number : Int) : (issueWithLine number).WellTyped where
  message := ⟨_, rfl⟩
  location := by
    rintro _ ⟨⟩
    exact ⟨⟨_, rfl⟩, .inr (.inl ⟨_, rfl⟩), .inl rfl⟩
  recommendation := ⟨_, rfl⟩
  code := .inr ⟨_, rfl⟩
  metadata := ⟨_, rfl⟩
  snippet := by
    rintro _ ⟨⟩
    refine ⟨⟨_, rfl⟩, .inl ⟨_, rfl⟩, ?_,
      List.nodup_cons.mpr ⟨List.not_mem_nil, List.nodup_nil⟩, .inl ⟨_, rfl⟩⟩
    rintro _ (_ | ⟨_, ⟨⟩⟩)
    exact ⟨_, rfl⟩

end Report

end PhpAudit
