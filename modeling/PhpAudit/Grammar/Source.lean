import PhpAudit.Text.Utf8
import PhpAudit.Grammar.Tree

/-!
# Sources as the grammar sees them

The grammar reads characters but reports bytes and rows, so a source is prepared once as an
array of `Glyph`s, each with its place. A byte that begins no well-formed character is a glyph
of its own with a code above every character's: it is neither a letter nor a blank, but text,
comments and string contents may hold it.
-/

namespace PhpAudit.Grammar

/-- A character of a source, or a byte that is none, with its place. -/
structure Glyph where
  code : Nat
  byte : Nat
  point : Point
deriving Repr, Inhabited

/-- The code of a byte that begins no character. -/
def strayByte : Nat := 0x110000

/-- The code read after the last glyph. -/
def endOfSource : Nat := 0x110001

/-- A source prepared for reading. The last glyph stands for the end. -/
structure Source where
  glyphs : Array Glyph

namespace Source

/-- The place after a glyph of the given code and width. -/
def after (code width : Nat) (point : Point) : Point :=
  if code = 0x0A then ⟨point.row + 1, 0⟩ else ⟨point.row, point.column + width⟩

/-- Cuts bytes into glyphs. The fuel counts the bytes that are left. -/
def cut (fuel : Nat) (bytes : List UInt8) (byte : Nat) (point : Point) (read : Array Glyph) :
    Array Glyph :=
  match fuel, bytes with
  | fuel + 1, _ :: rest =>
    match Text.Utf8.leading? bytes with
    | some (c, width) =>
      cut fuel (bytes.drop width) (byte + width) (after c.toNat width point)
        (read.push ⟨c.toNat, byte, point⟩)
    | none =>
      cut fuel rest (byte + 1) (after strayByte 1 point) (read.push ⟨strayByte, byte, point⟩)
  | _, _ => read.push ⟨endOfSource, byte, point⟩

def ofBytes (bytes : List UInt8) : Source := ⟨cut bytes.length bytes 0 ⟨0, 0⟩ #[]⟩

/-- The number of glyphs before the end. -/
def size (source : Source) : Nat := source.glyphs.size - 1

/-- The code of the glyph at a position, `endOfSource` from the end on. -/
def code (source : Source) (i : Nat) : Nat :=
  match source.glyphs[i]? with
  | some glyph => glyph.code
  | none => endOfSource

/-- The byte offset and point of a position. -/
def place (source : Source) (i : Nat) : Nat × Point :=
  match source.glyphs[i]? with
  | some glyph => (glyph.byte, glyph.point)
  | none => (0, ⟨0, 0⟩)

/-- The span between two positions. -/
def span (source : Source) (i j : Nat) : Span :=
  let (startByte, startPoint) := source.place i
  let (endByte, endPoint) := source.place j
  ⟨startByte, endByte, startPoint, endPoint⟩

/-- The first position from `i` on, within `fuel` steps, whose code fails the test. -/
def skipWhileFrom (source : Source) (test : Nat → Bool) : Nat → Nat → Nat
  | 0, i => i
  | fuel + 1, i => if test (source.code i) then source.skipWhileFrom test fuel (i + 1) else i

/-- The first position from `i` on whose code fails the test; the end fails every test. -/
def skipWhile (source : Source) (test : Nat → Bool) (i : Nat) : Nat :=
  source.skipWhileFrom (fun c => c != endOfSource && test c) (source.size + 1 - i) i

/-- The characters between two positions, for comparing words. -/
def text (source : Source) (i j : Nat) : String :=
  String.ofList ((List.range (j - i)).map fun k => Char.ofNat (source.code (i + k)))

/-- Whether the given characters stand at a position. -/
def startsWith (source : Source) (i : Nat) (text : String) : Bool :=
  go i text.toList
where
  go (i : Nat) : List Char → Bool
    | [] => true
    | c :: cs => source.code i == c.toNat && go (i + 1) cs

end Source

end PhpAudit.Grammar
