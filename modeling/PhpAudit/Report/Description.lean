import PhpAudit.Report.Severity

/-!
# Descriptions of analyzers
-/

namespace PhpAudit.Report

open PhpAudit.Data

/-- What an analyzer says about itself. -/
structure Description where
  id : Value
  name : Value
  description : Value
  category : Category
  severity : Severity
  tags : List Value := []
  docsUrl : Value := .null
deriving BEq, Repr

namespace Description

/-- A description as a value, without what it does not have. -/
def toValue (description : Description) : Value :=
  .record ([
    ("id", description.id),
    ("name", description.name),
    ("description", description.description),
    ("category", .text description.category.text),
    ("severity", .text description.severity.text),
    ("tags", (Value.list description.tags).orElse .null),
    ("docs_url", description.docsUrl)].filter fun field => !field.2.isNull)

/-- The tags that a value holds: its items, its keys or its characters. -/
def tagsOfValue (value : Value) : Except Fault (List Value) :=
  if !value.isPresent then .ok []
  else match value with
    | .list items => .ok items
    | .dict entries => .ok (entries.map fun entry => entry.1.toValue)
    | .text s => .ok (s.toList.map fun c => .text (String.singleton c))
    | _ => .error .wrongShape

def ofEntries (entries : Entries) : Except Fault Description := do
  return {
    id := ← entries.require "id"
    name := ← entries.require "name"
    description := ← entries.require "description"
    category := ← Category.ofValue (← entries.require "category")
    severity := ← Severity.ofValue (← entries.require "severity")
    tags := ← tagsOfValue (entries.getOrNull "tags")
    docsUrl := entries.getOrNull "docs_url" }

def ofValue (value : Value) : Except Fault Description := do ofEntries (← value.entries)

end Description

end PhpAudit.Report
