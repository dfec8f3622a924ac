import PhpAudit.Files.Tree
import PhpAudit.Snippet.Basic
import PhpAudit.Snippet.Signature
import PhpAudit.Text.Lines

/-!
# Windows of lines

Which lines of a file a snippet shows: those around its target, as many below as above, pushed back
into the file where they would leave it, and extended upwards to the signature of the declaration
that encloses the target when that is near and enough lines stay below.
-/

namespace PhpAudit.Snippet

open PhpAudit.Data PhpAudit.Files

/-- How far above the target a signature is looked for. -/
def signatureDepth : Int := 15

/-- The most characters of a line that are shown. -/
def lineLimit : Nat := 250

/-- Some lines with their numbers, from a first number on. -/
def numberedFrom {α : Type} (first : Int) : List α → List (Int × α)
  | [] => []
  | line :: rest => (first, line) :: numberedFrom (first + 1) rest

/-- The number of the first line that is a signature, unless a line before it closes a block. -/
def firstSignature? : List (Int × List Char) → Option Int
  | [] => none
  | (number, line) :: rest =>
    if isSignature (Text.strip line) then some number
    else if isCloser (Text.strip line) then none
    else firstSignature? rest

/-- The number of the nearest signature above the target. -/
def signatureLine? (lines : List (List Char)) (target : Int) : Option Int :=
  firstSignature?
    ((numberedFrom 1 lines).filter fun line =>
      max (target - signatureDepth) 1 ≤ line.1 && line.1 ≤ target - 1).reverse

/-- The first and the last line of the window around the target, in a file of `total` lines. What
is cut off above the file is given to the lines below, and the other way round. -/
def centred (total target radius : Int) : Int × Int :=
  let first := max (target - radius) 1
  let last := min (target + radius) total
  let last := if target - radius < 1 then min (last + (1 - (target - radius))) total else last
  let first := if total < target + radius then max (first - (target + radius - total)) 1 else first
  (first, last)

/-- The window extended upwards to a signature, if at least three lines, or the radius if that is
less, stay below the target. -/
def extended (total target radius : Int) (signature : Option Int) (window : Int × Int) :
    Int × Int :=
  match signature with
  | some line =>
    let below := 2 * radius - (target - line)
    if line < window.1 && min 3 radius ≤ below then (line, min (target + below) total) else window
  | none => window

/-- The first and the last line of the window around the target. -/
def window (lines : List (List Char)) (target radius : Int) : Int × Int :=
  extended lines.length target radius (signatureLine? lines target)
    (centred lines.length target radius)

/-- A line as it is shown: cut off behind the limit, and without blanks at its end. -/
def shownLine (line : List Char) : List Char := Text.stripEnd (line.take lineLimit)

/-- The numbers from a first one up to a last one. -/
def numbers (first last : Int) : List Int :=
  (List.range (last + 1 - first).toNat).map fun k : Nat => first + k

/-- The line under a number, counted from one, if there is one. -/
def lineUnder? (lines : List (List Char)) (number : Int) : Option (List Char) :=
  if number < 1 then none else lines[(number - 1).toNat]?

/-- The lines of a window, with their numbers. A window that reaches out of the file has none. -/
def linesIn? (lines : List (List Char)) (window : Int × Int) : Option (List (Int × List Char)) :=
  (numbers window.1 window.2).mapM fun number =>
    (lineUnder? lines number).map fun line => (number, shownLine line)

/-- The lines of a content that are shown around a target. -/
def linesAround? (content : List UInt8) (target radius : Int) : Option (List (Int × List Char)) :=
  let lines := Text.segments (Text.Utf8.decode content)
  linesIn? lines (window lines target radius)

/-- The snippet of a content around a target. -/
def ofContent? (file : String) (content : List UInt8) (target radius : Int) : Option Snippet :=
  (linesAround? content target radius).map fun lines => {
    file := .text file
    targetLine := .int target
    lines := lines.map fun (number, line) => (number, .text (String.ofList line))
    contextLines := .int radius }

/-- The snippet of a file around a target, if the file can be read. -/
def ofFile? (tree : Tree) (file : String) (target radius : Int) : Option Snippet := do
  ofContent? file (← tree.read? (Path.ofString file)) target radius

end PhpAudit.Snippet
