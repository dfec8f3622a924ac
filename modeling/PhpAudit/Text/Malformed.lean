import PhpAudit.Number.Integer
import PhpAudit.Text.Utf8

/-!
# Where input stops being UTF-8

Reading that does not replace what is ill-formed stops at the first ill-formed part. The part is
the one that replacement reads as one character, and it is named by its place and by what is wrong
with it.
-/

namespace PhpAudit.Text.Utf8

/-- What is wrong with an ill-formed part. -/
inductive Flaw where
  /-- No sequence starts with this byte. -/
  | start
  /-- A sequence is not continued by the byte behind it. -/
  | continuation
  /-- The input ends inside a sequence. -/
  | ending
deriving DecidableEq, Repr

/-- The words for a flaw. -/
def Flaw.text : Flaw → String
  | .start => "invalid start byte"
  | .continuation => "invalid continuation byte"
  | .ending => "unexpected end of data"

/-- An ill-formed part: its bytes from a position on, and what is wrong with it. -/
structure Malformed where
  position : Nat
  bytes : List UInt8
  flaw : Flaw
deriving DecidableEq, Repr

/-- The first ill-formed part from a position on; `begun` holds the bytes of the sequence that the
state is inside of, last byte first. -/
def malformedFrom (state : State) (begun : List UInt8) (position : Nat) :
    List UInt8 → Option Malformed
  | [] =>
    match state with
    | .idle => none
    | .inside .. => some ⟨position - begun.length, begun.reverse, .ending⟩
  | b :: rest =>
    match state with
    | .idle =>
      match first b with
      | .complete _ => malformedFrom .idle [] (position + 1) rest
      | .partway state => malformedFrom state [b] (position + 1) rest
      | .broken => some ⟨position, [b], .start⟩
    | .inside bits after low high =>
      match next bits after low high b with
      | .complete _ => malformedFrom .idle [] (position + 1) rest
      | .partway state => malformedFrom state (b :: begun) (position + 1) rest
      | .broken => some ⟨position - begun.length, begun.reverse, .continuation⟩

/-- The first ill-formed part of a byte string. -/
def malformed? (bytes : List UInt8) : Option Malformed := malformedFrom .idle [] 0 bytes

/-- The message for an ill-formed part. -/
def Malformed.message (part : Malformed) : String :=
  let place := match part.bytes with
    | [b] => "byte 0x" ++ String.ofList (Nat.toDigits 16 b.toNat) ++ " in position " ++
      Number.Integer.text part.position
    | bytes => "bytes in position " ++ Number.Integer.text part.position ++ "-" ++
      Number.Integer.text (part.position + bytes.length - 1)
  "'utf-8' codec can't decode " ++ place ++ ": " ++ part.flaw.text

end PhpAudit.Text.Utf8
