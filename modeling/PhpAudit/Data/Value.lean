import PhpAudit.Number.Binary64

/-!
# Values

The data that issues, results and settings carry and that reports write out. A dictionary keeps
the order in which its entries came, because the order shows in every report; its keys are values
without parts.
-/

namespace PhpAudit.Data

open PhpAudit.Number (Binary64)

/-- A key of a dictionary. -/
inductive Key where
  | null
  | bool (b : Bool)
  | int (n : Int)
  | number (x : Binary64)
  | text (s : String)
deriving DecidableEq, Repr, Inhabited

inductive Value where
  | null
  | bool (b : Bool)
  | int (n : Int)
  | number (x : Binary64)
  | text (s : String)
  | list (items : List Value)
  | dict (entries : List (Key × Value))
deriving BEq, Repr, Inhabited

/-- The entries of a dictionary. -/
abbrev Entries : Type := List (Key × Value)

def Key.toValue : Key → Value
  | .null => .null
  | .bool b => .bool b
  | .int n => .int n
  | .number x => .number x
  | .text s => .text s

namespace Value

/-- Whether a value counts as present: not null, false, zero or empty. -/
def isPresent : Value → Bool
  | .null => false
  | .bool b => b
  | .int n => n != 0
  | .number x => !x.isZero
  | .text s => !s.isEmpty
  | .list items => !items.isEmpty
  | .dict entries => !entries.isEmpty

def isNull : Value → Bool
  | .null => true
  | _ => false

/-- The value itself if it is present, otherwise another one. -/
def orElse (value other : Value) : Value := if value.isPresent then value else other

def ofText? : Option String → Value
  | some s => .text s
  | none => .null

end Value

def Entries.under? (entries : Entries) (key : Key) : Option Value :=
  (entries.find? fun entry => entry.1 == key).map Prod.snd

/-- The entries with one more; a key keeps its place and takes its last value. -/
def Entries.put (entries : Entries) (key : Key) (value : Value) : Entries :=
  if entries.any fun entry => entry.1 == key then
    entries.map fun entry => if entry.1 == key then (key, value) else entry
  else entries ++ [(key, value)]

/-- The value under a text key. -/
def Entries.get? (entries : Entries) (key : String) : Option Value :=
  (entries.find? fun entry => entry.1 == .text key).map Prod.snd

/-- The value under a text key, null if there is none. -/
def Entries.getOrNull (entries : Entries) (key : String) : Value := (entries.get? key).getD .null

/-- The entries under texts, in order. -/
def Entries.ofFields (fields : List (String × Value)) : Entries :=
  fields.map fun (name, value) => (.text name, value)

/-- A dictionary with texts as keys. -/
def Value.record (fields : List (String × Value)) : Value := .dict (Entries.ofFields fields)

end PhpAudit.Data
