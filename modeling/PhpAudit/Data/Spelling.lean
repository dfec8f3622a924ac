import PhpAudit.Data.Fault
import PhpAudit.Text.Quoted

/-!
# The spelling of values

How a value reads inside a message: texts in quotes, lists in brackets, dictionaries in braces. A
text that stands alone is shown as it is. Spelling fails at an integer with too many digits.
-/

namespace PhpAudit.Data

open PhpAudit.Number

def quotedText (s : String) : String := String.ofList (Text.Quoted.quoted s.toList)

/-- Items with commas between them. -/
def commaSeparated (items : List String) : String := ", ".intercalate items

/-- A key spelled out. -/
def Key.spelled : Key → Except Fault String
  | .null => .ok "None"
  | .bool b => .ok (if b then "True" else "False")
  | .int n => decimal digitLimit n
  | .number x => .ok x.text
  | .text s => .ok (quotedText s)

mutual

/-- A value spelled out. -/
def Value.spelled : Value → Except Fault String
  | .null => .ok "None"
  | .bool b => .ok (if b then "True" else "False")
  | .int n => decimal digitLimit n
  | .number x => .ok x.text
  | .text s => .ok (quotedText s)
  | .list items => do return "[" ++ commaSeparated (← spelledItems items) ++ "]"
  | .dict entries => do return "\x7b" ++ commaSeparated (← spelledEntries entries) ++ "\x7d"

/-- The items of a list spelled out. -/
def spelledItems : List Value → Except Fault (List String)
  | [] => .ok []
  | item :: rest => do return (← item.spelled) :: (← spelledItems rest)

/-- The entries of a dictionary spelled out. -/
def spelledEntries : List (Key × Value) → Except Fault (List String)
  | [] => .ok []
  | (key, value) :: rest => do
    return ((← key.spelled) ++ ": " ++ (← value.spelled)) :: (← spelledEntries rest)

end

/-- A value as it is shown: a text as it is, anything else spelled out. -/
def Value.shown : Value → Except Fault String
  | .text s => .ok s
  | value => value.spelled

end PhpAudit.Data
