import PhpAudit.Audit.Analyzer
import PhpAudit.Proofs.Snippet.Lines
import PhpAudit.Syntax.Reading

/-!
# Snippets of findings

Syntax nodes take their lines from the bytes of a source, and snippets from its decoded text.
`snippets_agree` says that the two mean the same lines: for every readable file, whatever its bytes,
a snippet shows the file line by line, and the snippet of a finding at a node shows the line that
the node starts on.
-/

namespace PhpAudit.Audit

open PhpAudit.Data PhpAudit.Files PhpAudit.Snippet

/-- The line of bytes that a construct starts on. -/
def startingLine (source : List UInt8) (tree : Grammar.Tree) : List UInt8 :=
  Text.pieceAt 0x0A source tree.span.startByte

/-- A construct starts in the row that its place has: as many line feeds stand before it. -/
def StartsInRow (source : List UInt8) (tree : Grammar.Tree) : Prop :=
  tree.span.startPoint.row = (source.take tree.span.startByte).count 0x0A

/-- The line that a construct starts on is the one with the number of its row. -/
theorem StartsInRow.getElem?_row {source : List UInt8} {tree : Grammar.Tree}
    (h : StartsInRow source tree) :
    (source.splitOn 0x0A)[tree.span.startPoint.row]? = some (startingLine source tree) := by
  rw [show tree.span.startPoint.row = _ from h]
  exact Text.getElem?_splitOn_count 0x0A source tree.span.startByte

/-- **Snippets show the lines that nodes start on.** A readable file has as many lines decoded as it
has in bytes; its snippets are placed among those and show them; and a finding at a node has a
line of the file, and a snippet in which that line is the one the node starts on. -/
theorem snippets_agree (session : Session) (file : String) {content : List UInt8}
    (hread : session.files.read? (Path.ofString file) = some content) :
    (Text.segments (Text.Utf8.decode content)).length = (content.splitOn 0x0A).length ∧
    (∀ target radius : Int, ∃ snippet,
      Snippet.ofFile? session.files file target radius = some snippet ∧
        Placed (content.splitOn 0x0A).length target radius (snippet.lines.map Prod.fst) ∧
        Show content snippet.lines) ∧
    ∀ (tree : Grammar.Tree) (children : List Syntax.Node), StartsInRow content tree →
      1 ≤ (Syntax.nodeOf content tree children).startLine ∧
      (Syntax.nodeOf content tree children).startLine ≤ (content.splitOn 0x0A).length ∧
      ∀ finding : Finding, finding.file = file →
        finding.line = some (Syntax.nodeOf content tree children).startLine →
        session.settings.showsSnippets = true →
        0 ≤ finding.radius.getD session.settings.snippetRadius →
        ∃ snippet shown, (session.issueFor finding).snippet = some snippet ∧
          ((Syntax.nodeOf content tree children).startLine, shown) ∈ snippet.lines ∧
          ShownAs (startingLine content tree) shown := by
  have hlength := length_segments_decode content
  have hsnippet : ∀ target radius : Int, ∃ snippet,
      Snippet.ofFile? session.files file target radius = some snippet ∧
        Placed (content.splitOn 0x0A).length target radius (snippet.lines.map Prod.fst) ∧
        Show content snippet.lines := by
    intro target radius
    obtain ⟨snippet, hof, hplaced, hmem⟩ := exists_ofFile? hread target radius
    rw [hlength] at hplaced
    exact ⟨snippet, hof, hplaced, show_of_pieces fun n shown h => ((hmem n shown).mp h).2⟩
  refine ⟨hlength, hsnippet, fun tree children hrow => ?_⟩
  have hline := hrow.getElem?_row
  obtain ⟨hlt, -⟩ := List.getElem?_eq_some_iff.mp hline
  have hstart : (Syntax.nodeOf content tree children).startLine =
      (1 + tree.span.startPoint.row : Int) := Int.add_comm _ _
  refine ⟨by omega, by omega, fun finding hfile hnode hshows hradius => ?_⟩
  obtain ⟨snippet, hof, hplaced, hshow⟩ := hsnippet (Syntax.nodeOf content tree children).startLine
    (finding.radius.getD session.settings.snippetRadius)
  have hmem := hplaced.target_mem hradius (by omega) (by omega)
  rw [hstart] at hmem
  obtain ⟨shown, hshown, hentry⟩ := hshow.mem hmem hline
  refine ⟨snippet, shown, ?_, hstart ▸ hentry, hshown⟩
  change session.snippet? finding.file finding.line finding.radius = some snippet
  rw [hfile, hnode]
  simp only [Session.snippet?, hshows, if_true, hof]

/-- A file whose first line ends inside a sequence of three bytes, and whose second line is longer
than what is shown of it, which ends in a blank. -/
def truncatedContent : List UInt8 :=
  [0x61, 0xE2, 0x82, 0x0A] ++ List.replicate 249 0x62 ++ [0x20, 0x63]

def truncatedSession : Session where
  settings := {}
  files := ⟨[(["a.php"], .file truncatedContent true)]⟩

/-- A construct on its second line. -/
def secondLineName : Grammar.Tree := .node "name" true none ⟨4, 5, ⟨1, 0⟩, ⟨1, 1⟩⟩ []

def secondLineFinding : Finding where
  message := .text "m"
  file := "a.php"
  line := some (Syntax.nodeOf truncatedContent secondLineName []).startLine
  severity := .low
  recommendation := .text "r"

/-- The line feed after the truncated sequence still ends the first line. Of the second line the
snippet shows what is left when it is cut and the blank at the cut is stripped. -/
theorem snippets_agree_truncated :
    truncatedSession.files.read? (Path.ofString "a.php") = some truncatedContent ∧
    StartsInRow truncatedContent secondLineName ∧
    ∃ snippet, (truncatedSession.issueFor secondLineFinding).snippet = some snippet ∧
      ((2 : Int), .text (String.ofList (List.replicate 249 'b'))) ∈ snippet.lines := by
  have hread : truncatedSession.files.read? (Path.ofString "a.php") = some truncatedContent := by
    decide +kernel
  have hrow : StartsInRow truncatedContent secondLineName := by
    unfold StartsInRow
    decide +kernel
  have htext : Text.Utf8.decode (startingLine truncatedContent secondLineName) =
      List.replicate 249 'b' ++ [' ', 'c'] := by
    decide +kernel
  have hcut : Text.stripEnd ((List.replicate 249 'b' ++ [' ', 'c']).take 250) =
      List.replicate 249 'b' := by
    decide +kernel
  refine ⟨hread, hrow, ?_⟩
  obtain ⟨-, -, hnodes⟩ := snippets_agree truncatedSession "a.php" hread
  obtain ⟨snippet, shown, hsnippet, hmem, text, hreplaces, rfl⟩ :=
    (hnodes secondLineName [] hrow).2.2 secondLineFinding rfl rfl rfl (by decide)
  rw [Text.Utf8.replaces_iff, htext] at hreplaces
  rw [hreplaces, hcut] at hmem
  exact ⟨snippet, hsnippet, hmem⟩

end PhpAudit.Audit
