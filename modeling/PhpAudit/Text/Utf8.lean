/-!
# UTF-8 with replacement

Decoding never fails: every maximal part of the input that starts no well-formed sequence is
read as one U+FFFD. The decoder is a finite automaton run over the bytes, so its behaviour
after any beginning of the input is described by one `State`; a byte below 0x80 always brings
it back to `State.idle`, whatever it was in the middle of.
-/

namespace PhpAudit.Text.Utf8

/-- The character written for input that is not UTF-8. -/
def replacement : Char := Char.ofNat 0xFFFD

/-- What the decoder remembers between two bytes. -/
inductive State where
  /-- Between characters. -/
  | idle
  /-- Inside a sequence: the bits read so far, how many bytes must still follow after the next
  one, and the range that the next byte has to lie in. -/
  | inside (bits : Nat) (after : Nat) (low high : UInt8)
deriving DecidableEq, Repr

/-- What one byte does to a well-formed sequence. -/
inductive Reading where
  /-- It completes a character. -/
  | complete (c : Char)
  /-- It leads into, or continues, a longer sequence. -/
  | partway (state : State)
  /-- No well-formed sequence has this byte here. -/
  | broken
deriving Repr

/-- The first byte of a sequence. -/
def first (b : UInt8) : Reading :=
  if b < 0x80 then .complete (Char.ofNat b.toNat)
  else if b < 0xC2 then .broken
  else if b < 0xE0 then .partway (.inside (b.toNat - 0xC0) 0 0x80 0xBF)
  else if b = 0xE0 then .partway (.inside 0 1 0xA0 0xBF)
  else if b = 0xED then .partway (.inside 0xD 1 0x80 0x9F)
  else if b < 0xF0 then .partway (.inside (b.toNat - 0xE0) 1 0x80 0xBF)
  else if b = 0xF0 then .partway (.inside 0 2 0x90 0xBF)
  else if b < 0xF4 then .partway (.inside (b.toNat - 0xF0) 2 0x80 0xBF)
  else if b = 0xF4 then .partway (.inside 4 2 0x80 0x8F)
  else .broken

/-- A later byte of a sequence. -/
def next (bits after : Nat) (low high b : UInt8) : Reading :=
  if low ≤ b ∧ b ≤ high then
    let bits := bits * 64 + (b.toNat - 0x80)
    match after with
    | 0 => .complete (Char.ofNat bits)
    | n + 1 => .partway (.inside bits n 0x80 0xBF)
  else .broken

/-- One byte read between characters: what it writes, and the state it leaves. -/
def stepIdle (b : UInt8) : List Char × State :=
  match first b with
  | .complete c => ([c], .idle)
  | .partway state => ([], state)
  | .broken => ([replacement], .idle)

/-- One byte read in any state. A byte that cannot continue the sequence ends it as one
replacement character and is then read afresh. -/
def step : State → UInt8 → List Char × State
  | .idle, b => stepIdle b
  | .inside bits after low high, b =>
    match next bits after low high b with
    | .complete c => ([c], .idle)
    | .partway state => ([], state)
    | .broken => (replacement :: (stepIdle b).1, (stepIdle b).2)

/-- What is written when the input ends. -/
def finish : State → List Char
  | .idle => []
  | .inside .. => [replacement]

/-- The characters written from a given state on. -/
def decodeFrom : State → List UInt8 → List Char
  | state, [] => finish state
  | state, b :: bs => (step state b).1 ++ decodeFrom (step state b).2 bs

/-- The characters of a byte string, with U+FFFD for each maximal ill-formed part. -/
def decode (bytes : List UInt8) : List Char := decodeFrom .idle bytes

def decodeString (bytes : List UInt8) : String := String.ofList (decode bytes)

/-- The rest of a sequence that has been begun: the character and the bytes used. -/
def completed? (state : State) (width : Nat) : List UInt8 → Option (Char × Nat)
  | [] => none
  | b :: bs =>
    match state with
    | .idle => none
    | .inside bits after low high =>
      match next bits after low high b with
      | .complete c => some (c, width + 1)
      | .partway state => completed? state (width + 1) bs
      | .broken => none

/-- The character at the front of the input and its width in bytes, when a well-formed sequence
starts there. -/
def leading? : List UInt8 → Option (Char × Nat)
  | [] => none
  | b :: bs =>
    match first b with
    | .complete c => some (c, 1)
    | .partway state => completed? state 1 bs
    | .broken => none

def encodeChar (c : Char) : List UInt8 :=
  let n := c.toNat
  if n < 0x80 then [n.toUInt8]
  else if n < 0x800 then [(0xC0 + n / 64).toUInt8, (0x80 + n % 64).toUInt8]
  else if n < 0x10000 then
    [(0xE0 + n / 4096).toUInt8, (0x80 + n / 64 % 64).toUInt8, (0x80 + n % 64).toUInt8]
  else
    [(0xF0 + n / 262144).toUInt8, (0x80 + n / 4096 % 64).toUInt8,
      (0x80 + n / 64 % 64).toUInt8, (0x80 + n % 64).toUInt8]

def encode (text : List Char) : List UInt8 := text.flatMap encodeChar

def encodeString (text : String) : List UInt8 := encode text.toList

end PhpAudit.Text.Utf8
