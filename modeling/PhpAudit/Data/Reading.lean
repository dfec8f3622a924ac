import PhpAudit.Data.Spelling

/-!
# Reading records from values

Values that are read as something more definite: the fields of records, the members of dictionaries
and the integers that keys stand for. Fields that a record only passes on are read as they are.
-/

namespace PhpAudit.Data

open PhpAudit.Number

/-- The message for an integer with more digits than it may be written with. -/
def tooLongMessage (limit : Nat) : String :=
  "Exceeds the limit (" ++ Integer.text limit ++ " digits) for integer string conversion; " ++
    "use sys.set_int_max_str_digits() to increase the limit"

def Fault.message? : Fault → Option String
  | .missing name => some (quotedText name)
  | .notAMember value set =>
    -- the message spells the value, which fails for an integer that is too long
    match value.spelled with
    | .ok spelled => some (spelled ++ " is not a valid " ++ set)
    | .error _ => some (tooLongMessage digitLimit)
  | .notAnInteger text =>
    some ("invalid literal for int() with base 10: " ++
      String.ofList ((Text.Quoted.quoted text.toList).take 200))
  | .tooManyDigits count =>
    some ("Exceeds the limit (4300 digits) for integer string conversion: value has " ++
      Integer.text count ++ " digits; use sys.set_int_max_str_digits() to increase the limit")
  | .tooLong limit => some (tooLongMessage limit)
  | .nanAsInteger => some "cannot convert float NaN to integer"
  | .infinityAsInteger => none
  | .wrongShape => none
  | .noSuchOperation => none

/-- The field of a record that must be there. -/
def Entries.require (entries : Entries) (name : String) : Except Fault Value :=
  match entries.get? name with
  | some value => .ok value
  | none => .error (.missing name)

/-- The entries of a value that must be a dictionary. -/
def Value.entries : Value → Except Fault Entries
  | .dict entries => .ok entries
  | _ => .error .wrongShape

/-- The integer that a text spells. -/
def integerOfText (text : String) : Except Fault Int :=
  match Integer.parts? text.toList with
  | some parts =>
    if digitLimit < parts.2.length then .error (.tooManyDigits parts.2.length)
    else .ok (Integer.ofParts parts)
  | none => .error (.notAnInteger text)

/-- The integer that a key stands for: truth values count as 1 and 0, other numbers lose their
fraction, texts are read. -/
def Key.toInt : Key → Except Fault Int
  | .null => .error .wrongShape
  | .bool b => .ok (if b then 1 else 0)
  | .int n => .ok n
  | .number .nan => .error .nanAsInteger
  | .number (.infinite _) => .error .infinityAsInteger
  | .number (.finite negative mantissa exponent) =>
    .ok (Binary64.truncated negative mantissa exponent)
  | .text s => integerOfText s

end PhpAudit.Data
