import PhpAudit.Report.Collection
import PhpAudit.Text.CellWidth
import PhpAudit.Text.Lines

/-!
# Reports for a terminal

A report is a list of items, each a text with a colour or without one. Setting an item splits it
into lines and each line into pieces; a piece is what one change of colour and the change back
enclose. Without colours the same pieces are written one after the other, so that colours never
change what a report says. How texts are set and titles are framed is up to a printer; there is a
standard one.
-/

namespace PhpAudit.Report

open PhpAudit.Data PhpAudit.Number

/-! ## Setting texts -/

/-- How a piece is written. -/
inductive Ink where
  | bold
  | colour (c : Colour)
deriving DecidableEq, Repr

/-- The number that switches an ink on. -/
def Ink.code : Ink → String
  | .bold => "1"
  | .colour .red => "31"
  | .colour .green => "32"
  | .colour .yellow => "33"
  | .colour .blue => "34"
  | .colour .gray => "90"
  | .colour .orange => "91"

/-- A text to be printed, which may take several lines. -/
structure Item where
  ink : Option Ink := none
  text : String := ""
deriving DecidableEq, Repr

/-- A stretch of a line, written at once. -/
structure Piece where
  ink : Option Ink
  chars : List Char
deriving DecidableEq, Repr

/-- Whether a terminal would act on a character instead of showing it: the bell, the backspace, the
vertical tab, the form feed and the carriage return. -/
def isControl (c : Char) : Bool :=
  c.toNat == 0x07 || c.toNat == 0x08 || c.toNat == 0x0B || c.toNat == 0x0C || c.toNat == 0x0D

/-- The distance between tab stops in cells. -/
def tabStop : Nat := 8

/-- Cuts a line behind each tab. -/
def tabFields : List Char → List (List Char × Bool)
  | [] => [([], false)]
  | c :: rest =>
    if c = '\t' then ([], true) :: tabFields rest
    else match tabFields rest with
      | (field, closed) :: more => (c :: field, closed) :: more
      | [] => [([c], false)]

/-- The blanks that a tab stands for when so many cells precede it. -/
def tabBlanks (cells : Nat) : Nat := tabStop - cells % tabStop

/-- The fields of a line with blanks in place of tabs, from a given cell on. -/
def expandTabs (cells : Nat) : List (List Char × Bool) → List (List Char)
  | [] => []
  | (field, closed) :: rest =>
    let here := cells + Text.cellsOf field
    if closed then
      (field ++ List.replicate (tabBlanks here) ' ') :: expandTabs (here + tabBlanks here) rest
    else field :: expandTabs here rest

/-- The lines that a text takes, each cut into pieces. -/
def setText (text : List Char) : List (List (List Char)) :=
  (Text.segments (text.filter fun c => !isControl c)).map fun line =>
    expandTabs 0 (tabFields line)

/-- A title in a frame with round corners that is so many cells wide, which is three lines. -/
def frameTitle (width : Nat) (title : List Char) : List (List (List Char)) :=
  let rule := List.replicate (width - 2) '─'
  let space := List.replicate (width - 4 - title.length) ' '
  [['╭' :: rule ++ ['╮']], [['│'], [' '], title, space, [' '], ['│']], ['╰' :: rule ++ ['╯']]]

/-- How texts are set, and how a title is framed in so many cells. Either takes lines, each cut into
pieces. -/
structure Printer where
  set : List Char → List (List (List Char))
  frame : Nat → List Char → List (List (List Char))

/-- The printer that breaks no line but at line feeds. -/
def Printer.standard : Printer := ⟨setText, frameTitle⟩

/-- Lines that are cut into pieces, in an ink. -/
def inInk (ink : Option Ink) (lines : List (List (List Char))) : List (List Piece) :=
  lines.map fun line => line.map fun chars => ⟨ink, chars⟩

def Item.lines (printer : Printer) (item : Item) : List (List Piece) :=
  inInk item.ink (printer.set item.text.toList)

/-- The character that starts a change of ink. -/
def escapeChar : Char := Char.ofNat 0x1B

/-- What switches an ink on. -/
def Ink.start (ink : Ink) : List Char := [escapeChar, '['] ++ ink.code.toList ++ ['m']

/-- What switches every ink off. -/
def inkEnd : List Char := [escapeChar, '[', '0', 'm']

/-- A piece as written, with colours or without. Nothing is written for an empty piece. -/
def Piece.written (colours : Bool) (piece : Piece) : List Char :=
  match colours, piece.ink, piece.chars with
  | true, some ink, c :: rest => ink.start ++ c :: rest ++ inkEnd
  | _, _, chars => chars

def writtenLine (colours : Bool) (line : List Piece) : List Char :=
  line.flatMap (Piece.written colours) ++ ['\n']

/-! ## The parts of a report -/

def reportTitle : String := "Analysis Report"

/-- The cells that the title and the rules take. -/
def reportWidth : Nat := 60

def inColour (colour : Colour) (text : String) : Item := ⟨some (.colour colour), text⟩

/-- A text without a colour. -/
def plain (text : String) : Item := ⟨none, text⟩

def blankLine : Item := plain ""

def count (n : Nat) : String := Integer.text n

def scoreColour (score : Binary64) : Colour :=
  if score.atLeast 80 then .green else if score.atLeast 60 then .yellow else .red

/-- The figures at the top of a report. -/
def summaryItems (collection : Collection) : Except Fault (List Item) := do
  let score := Collection.percentage 1 collection.successes collection.size
  let errors := collection.count .error
  let time ← collection.totalExecutionTime
  return [
    inColour (scoreColour score) ("Score: " ++ score.text ++ "%"),
    blankLine,
    plain ("Total Analyzers: " ++ count collection.size),
    inColour .green ("  " ++ Status.passed.emoji ++ " Passed: " ++ count (collection.count .passed)),
    inColour .red ("  " ++ Status.failed.emoji ++ " Failed: " ++ count (collection.count .failed)),
    inColour .yellow
      ("  " ++ Status.warning.emoji ++ " Warnings: " ++ count (collection.count .warning)),
    inColour .gray
      ("  " ++ Status.skipped.emoji ++ " Skipped: " ++ count (collection.count .skipped))] ++
    (if errors = 0 then []
      else [inColour .red ("  " ++ Status.error.emoji ++ " Errors: " ++ count errors)]) ++
    [blankLine,
    plain ("Total Issues Found: " ++ count collection.totalIssues),
    plain ("Execution Time: " ++ (time.roundTo 2).text ++ "s")]

/-- The place of an issue, if it has one. -/
def locationItems : Option Location → Except Fault (List Item)
  | none => .ok []
  | some location => do return [inColour .gray ("      Location: " ++ (← location.text))]

/-- The code of an issue, line by line, if there is any and it is asked for. -/
def codeItems (verbose : Bool) (code : Value) : Except Fault (List Item) :=
  if verbose && !code.isNull then
    match code with
    | .text code =>
      .ok (inColour .gray "      Code:" :: (Text.lines code.toList).map fun line =>
        inColour .gray ("        " ++ String.ofList line))
    | _ => .error .noSuchOperation
  else .ok []

/-- An issue under its result. -/
def issueItems (verbose : Bool) (issue : Issue) : Except Fault (List Item) := do
  let message ← issue.message.shown
  let location ← locationItems issue.location
  let recommendation ← issue.recommendation.shown
  let code ← codeItems verbose issue.code
  return [plain ("    • " ++ message)] ++ location ++
    [inColour issue.severity.colour ("      Severity: " ++ issue.severity.label),
    plain ("      Recommendation: " ++ recommendation)] ++ code

/-- The items of some issues, one issue after the other. -/
def issuesItems (verbose : Bool) : List Issue → Except Fault (List Item)
  | [] => .ok []
  | issue :: rest => do return (← issueItems verbose issue) ++ (← issuesItems verbose rest)

def resultItems (verbose : Bool) (colour : Colour) (result : Result) :
    Except Fault (List Item) := do
  let analyzerId ← result.analyzerId.shown
  let message ← result.message.shown
  let issues ← issuesItems verbose result.issues
  return [blankLine,
    inColour colour (result.status.emoji ++ " " ++ analyzerId),
    plain ("  " ++ message)] ++
    (if result.issues.isEmpty then [] else inColour colour "  Issues:" :: issues)

/-- The items of some results, one result after the other. -/
def resultsItems (verbose : Bool) (colour : Colour) : List Result → Except Fault (List Item)
  | [] => .ok []
  | result :: rest => do
    return (← resultItems verbose colour result) ++ (← resultsItems verbose colour rest)

/-- The part of a report that lists the results of one status. -/
structure Section where
  title : String
  status : Status
  colour : Colour
deriving DecidableEq, Repr

def sections (verbose : Bool) : List Section :=
  [⟨"Failed Analyzers", .failed, .red⟩, ⟨"Warnings", .warning, .yellow⟩,
    ⟨"Errors", .error, .red⟩] ++ (if verbose then [⟨"Passed Analyzers", .passed, .green⟩] else [])

/-- A section with the results that belong to it. A section without results is left out. -/
def sectionItems (verbose : Bool) (collection : Collection) (part : Section) :
    Except Fault (List Item) :=
  let results := collection.byStatus part.status
  if results.isEmpty then .ok []
  else do
    let items ← resultsItems verbose part.colour results
    return [inColour part.colour (part.title ++ ":"),
      plain (String.ofList (List.replicate reportWidth '─'))] ++ items ++ [blankLine]

/-- The items of some sections, one section after the other. -/
def sectionsItems (verbose : Bool) (collection : Collection) :
    List Section → Except Fault (List Item)
  | [] => .ok []
  | part :: rest => do
    return (← sectionItems verbose collection part) ++
      (← sectionsItems verbose collection rest)

/-- The verdict at the end of a report. -/
def footerItem (collection : Collection) : Item :=
  if !(collection.byStatus .failed).isEmpty || !(collection.byStatus .error).isEmpty then
    inColour .red (Status.failed.emoji ++ " Analysis completed with issues")
  else if !(collection.byStatus .warning).isEmpty then
    inColour .yellow (Status.warning.emoji ++ " Analysis completed with warnings")
  else inColour .green (Status.passed.emoji ++ " Analysis completed successfully")

/-- Everything that a report says below its title. -/
def reportItems (verbose : Bool) (collection : Collection) : Except Fault (List Item) := do
  let summary ← summaryItems collection
  let body ← sectionsItems verbose collection (sections verbose)
  return summary ++ [blankLine] ++ body ++ [footerItem collection]

def reportLines (printer : Printer) (verbose : Bool) (collection : Collection) :
    Except Fault (List (List Piece)) := do
  let items ← reportItems verbose collection
  return inInk (some .bold) (printer.frame reportWidth reportTitle.toList) ++
    items.flatMap (Item.lines printer)

/-- A report for a terminal. -/
def Collection.toConsole (collection : Collection) (printer : Printer) (colours verbose : Bool) :
    Except Fault String := do
  let lines ← reportLines printer verbose collection
  return String.ofList (lines.flatMap (writtenLine colours))

end PhpAudit.Report
