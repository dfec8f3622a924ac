import PhpAudit.Data.Fault

/-!
# JSON documents

A document as the format sees it: numbers are the tokens that write them, objects are fields in
order, and a name may occur twice. `ofValue` turns a value into a document; only then do keys that
are no texts become names, so that everything about escapes and layout is said of documents alone.
A value with an integer that has more digits than the limit allows has no document.
-/

namespace PhpAudit.Json

open Data Number

/-- A JSON document. -/
inductive Document where
  | null
  | bool (b : Bool)
  | num (token : List Char)
  | str (chars : List Char)
  | list (items : List Document)
  | object (fields : List (List Char × Document))
deriving Repr, Inhabited

/-- The token of a truth value. -/
def boolToken (b : Bool) : List Char := if b then "true".toList else "false".toList

def numberToken (x : Binary64) : List Char := (x.spelled Layout.json).toList

/-- The name that stands for a key. -/
def nameOfKey (limit : Option Nat) : Key → Except Fault (List Char)
  | .null => .ok "null".toList
  | .bool b => .ok (boolToken b)
  | .int n => do return (← decimal limit n).toList
  | .number x => .ok (numberToken x)
  | .text s => .ok s.toList

mutual

/-- The document of a value. -/
def Document.ofValue (limit : Option Nat) : Value → Except Fault Document
  | .null => .ok .null
  | .bool b => .ok (.bool b)
  | .int n => do return .num (← decimal limit n).toList
  | .number x => .ok (.num (numberToken x))
  | .text s => .ok (.str s.toList)
  | .list items => do return .list (← documentsOf limit items)
  | .dict entries => do return .object (← fieldsOf limit entries)

def documentsOf (limit : Option Nat) : List Value → Except Fault (List Document)
  | [] => .ok []
  | item :: rest => do return (← Document.ofValue limit item) :: (← documentsOf limit rest)

def fieldsOf (limit : Option Nat) :
    List (Key × Value) → Except Fault (List (List Char × Document))
  | [] => .ok []
  | (key, value) :: rest => do
    let name ← nameOfKey limit key
    return (name, ← Document.ofValue limit value) :: (← fieldsOf limit rest)

end

end PhpAudit.Json
