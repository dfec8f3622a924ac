import PhpAudit.Data.Value
import PhpAudit.Number.Integer

/-!
# Faults

What can be wrong with a value that is read as something more definite, or that is to be written. A
fault of reading is always one of structure: a field that is not there, a name outside a fixed set, a
key that is no number, or a value of the wrong shape. Writing fails only for integers with very many
digits.
-/

namespace PhpAudit.Data

open PhpAudit.Number

/-- Why a value cannot be read or written. -/
inductive Fault where
  /-- A record has no field of this name. -/
  | missing (name : String)
  /-- A value is not one of the named set. -/
  | notAMember (value : Value) (set : String)
  /-- A text does not spell an integer. -/
  | notAnInteger (text : String)
  /-- A text spells an integer with too many digits. -/
  | tooManyDigits (count : Nat)
  /-- An integer has more digits than it may be written with. -/
  | tooLong (limit : Nat)
  /-- The number that is none has no integer part. -/
  | nanAsInteger
  /-- Infinity has no integer part. -/
  | infinityAsInteger
  /-- A value has the wrong shape for what is done with it. -/
  | wrongShape
  /-- A value lacks an operation that is asked of it. -/
  | noSuchOperation
deriving BEq, Repr, Inhabited

/-- The name under which a fault is reported. -/
def Fault.kind : Fault → String
  | .missing _ => "KeyError"
  | .notAMember .. => "ValueError"
  | .notAnInteger _ => "ValueError"
  | .tooManyDigits _ => "ValueError"
  | .tooLong _ => "ValueError"
  | .nanAsInteger => "ValueError"
  | .infinityAsInteger => "OverflowError"
  | .wrongShape => "TypeError"
  | .noSuchOperation => "AttributeError"

/-! ## Integers with many digits -/

/-- The most digits that an integer is read from or written with. -/
def digitLimit : Nat := 4300

/-- An integer in decimal, unless it has more digits than the limit allows. Without a limit every
integer is written. -/
def decimal (limit : Option Nat) (n : Int) : Except Fault String :=
  match limit with
  | some digits =>
    if Nat.pow 10 digits ≤ n.natAbs then .error (.tooLong digits) else .ok (Integer.text n)
  | none => .ok (Integer.text n)

end PhpAudit.Data
