import PhpAudit.Files.Tree
import PhpAudit.Pattern.Reader
import PhpAudit.Snippet.Window
import PhpAudit.Text.Lines

/-!
# The text of files

Files read as text, with the carriage returns of other systems turned into line feeds, and the
lines of that text by number. A file that cannot be read has no text and no lines.
-/

namespace PhpAudit.Files.Tree

def textOf (content : List UInt8) : List Char := Text.withLineFeeds (Text.Utf8.decode content)

def text? (tree : Tree) (file : String) : Option (List Char) :=
  (tree.read? (Path.ofString file)).map textOf

/-- The lines of a file, each with what ends it. -/
def lines (tree : Tree) (file : String) : List (List Char) :=
  match tree.text? file with
  | some text => Text.linesWithEnds text
  | none => []

/-- The number of lines of a file. -/
def countLines (tree : Tree) (file : String) : Nat := (tree.lines file).length

/-- The line of a file under a number. -/
def line? (tree : Tree) (file : String) (number : Int) : Option (List Char) :=
  let lines := tree.lines file
  if number < 1 || lines.length < number then none else lines[(number - 1).toNat]?

/-- The lines of a file from a first number to a last, with their numbers. Numbers outside of the
file are left out. -/
def lineRange (tree : Tree) (file : String) (first last : Int) : List (Int × List Char) :=
  let lines := tree.lines file
  (Snippet.numbers (max first 1) last).filterMap fun number : Int =>
    if number ≤ lines.length then lines[(number - 1).toNat]?.map fun line => (number, line)
    else none

/-- The size of a file in bytes, zero if there is none. -/
def size (tree : Tree) (file : String) : Nat := (tree.size? (Path.ofString file)).getD 0

/-- Whether a text holds another one. -/
def holds (needle : List Char) : List Char → Bool
  | [] => needle.isEmpty
  | c :: rest => needle.isPrefixOf (c :: rest) || holds needle rest

/-- Whether the text of a file holds another one. -/
def contains (tree : Tree) (file needle : String) : Bool :=
  (tree.text? file).any (holds needle.toList)

/-- How often a text holds another one, counted from the left and without overlaps. `skip`
characters still belong to the last find. -/
def countIn (needle : List Char) : Nat → List Char → Nat
  | _, [] => 0
  | skip + 1, _ :: rest => countIn needle skip rest
  | 0, c :: rest =>
    if needle.isPrefixOf (c :: rest) then 1 + countIn needle (needle.length - 1) rest
    else countIn needle 0 rest

/-- How often the text of a file holds another one that is not empty. -/
def countOccurrences (tree : Tree) (file needle : String) : Nat :=
  match tree.text? file with
  | some text => if needle.isEmpty then 0 else countIn needle.toList 0 text
  | none => 0

/-- Whether the text of a file holds a match of a pattern. The pattern is only read if there is a
text. -/
def matchesPattern (tree : Tree) (file pattern : String) : Except Pattern.Fault Bool :=
  match tree.text? file with
  | some text => do return (← Pattern.ofText pattern.toList).occursIn text
  | none => .ok false

/-- The lines that a snippet shows around a line, as plain text. -/
def snippetText? (tree : Tree) (file : String) (line radius : Int) : Option (List Char) :=
  (tree.read? (Path.ofString file)).bind fun content =>
    (Snippet.linesAround? content line radius).map fun lines =>
      lines.flatMap fun shown => shown.2 ++ ['\n']

/-- The lines from one index up to another; an end below zero is counted from behind. -/
def slice (lines : List (List Char)) (start : Nat) (stop : Int) : List (List Char) :=
  let stop := if stop < 0 then lines.length + stop else stop
  (lines.take stop.toNat).drop start

/-- The raw text of the lines around a line. -/
def rawSnippet? (tree : Tree) (file : String) (line radius : Int) : Option (List Char) :=
  (tree.text? file).map fun text =>
    let lines := Text.linesWithEnds text
    (slice lines (line - radius - 1).toNat (min lines.length (line + radius))).flatten

end PhpAudit.Files.Tree
