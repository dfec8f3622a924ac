import PhpAudit.Proofs.Files.Ranges
import PhpAudit.Proofs.Snippet.Lines
import PhpAudit.Proofs.Text.Endings

/-!
# Line numbers of files and of snippets

A file has lines by number in two places. Read as text, its carriage returns become line feeds and
every line end of Unicode ends a line; for a snippet it is cut at the line feeds of the bytes alone.
`lines_numberedAlike` says that a number means the same line in both as long as the content is an
ordinary text: the number of lines is that of the pieces, without an empty last one, and the line
under a number is shown in a snippet as the piece there is, cut and stripped.
-/

namespace PhpAudit.Files.Tree

open PhpAudit.Text (IsPaired IsWhole segments stripEnd withoutLast)
open PhpAudit.Text.Utf8 (decode)
open PhpAudit.Snippet (window)

variable {tree : Tree} {file : String} {content : List UInt8}

/-- The line under a number is the one in the number's place, counted from one. -/
theorem line?_eq_getElem? (tree : Tree) (file : String) {number : Int} {i : Nat}
    (hnumber : number = 1 + i) : tree.line? file number = (tree.lines file)[i]? := by
  have hindex : (number - 1).toNat = i := by omega
  simp only [line?, hindex]
  split
  next hout =>
    simp only [Bool.or_eq_true, decide_eq_true_eq] at hout
    rw [List.getElem?_eq_none (by omega)]
  next => rfl

/-- The pieces of an ordinary content are the lines of its file, but for what ends them. -/
theorem segments_eq_lines (hread : tree.read? (Path.ofString file) = some content)
    (hpaired : IsPaired (decode content))
    (hends : ∀ c ∈ decode content, c.toNat ∉ Text.otherLineEnds) :
    (segments (decode content)).map (withoutLast '\r') =
      (tree.lines file).map (withoutLast '\n') ++ if IsWhole (decode content) then [[]] else [] := by
  rw [lines_of_read? hread]
  exact Text.segments_eq_lines hpaired hends

/-- A line of an ordinary file is shown as the piece in its place: the two are the same up to what
ends them, and a carriage return is stripped wherever the piece is cut. -/
theorem exists_piece_of_line (hread : tree.read? (Path.ofString file) = some content)
    (hpaired : IsPaired (decode content))
    (hends : ∀ c ∈ decode content, c.toNat ∉ Text.otherLineEnds) {i : Nat} {line : List Char}
    (hline : (tree.lines file)[i]? = some line) :
    ∃ piece, (segments (decode content))[i]? = some piece ∧
      Snippet.shownLine piece = stripEnd ((withoutLast '\n' line).take 250) := by
  have hi := (List.getElem?_eq_some_iff.mp hline).1
  have hsame := congrArg (·[i]?) (segments_eq_lines hread hpaired hends)
  simp only [List.getElem?_map] at hsame
  rw [List.getElem?_append_left (by rw [List.length_map]; exact hi), List.getElem?_map, hline,
    Option.map_some, Option.map_eq_some_iff] at hsame
  obtain ⟨piece, hpiece, hline⟩ := hsame
  have hblank : Text.isBlank '\r' = true := by decide
  refine ⟨piece, hpiece, ?_⟩
  rw [← hline, Text.stripEnd_take_withoutLast hblank]
  rfl

/-- **Files and snippets number lines alike.** A readable file whose decoded text has no line ends
but line feeds, alone or behind a carriage return, has a line for each piece between line feeds,
except for an empty one at its end. Every number up to that has a line, and a snippet shows that
line, without its line feed, cut off and stripped, exactly when the number is in its window. -/
theorem lines_numberedAlike (tree : Tree) (file : String) {content : List UInt8}
    (hread : tree.read? (Path.ofString file) = some content) (hpaired : IsPaired (decode content))
    (hends : ∀ c ∈ decode content, c.toNat ∉ Text.otherLineEnds) :
    tree.countLines file =
      (if IsWhole (decode content) then (segments (decode content)).length - 1
        else (segments (decode content)).length) ∧
    ∀ number : Int, 1 ≤ number → number ≤ tree.countLines file →
      ∃ line, tree.line? file number = some line ∧ ∀ target radius : Int, ∃ snippet,
        Snippet.ofFile? tree file target radius = some snippet ∧
          ∀ shown, (number, shown) ∈ snippet.lines ↔
            ((window (segments (decode content)) target radius).1 ≤ number ∧
              number ≤ (window (segments (decode content)) target radius).2) ∧
            shown = .text (String.ofList (stripEnd ((withoutLast '\n' line).take 250))) := by
  constructor
  · have hlength := congrArg List.length (segments_eq_lines hread hpaired hends)
    rw [List.length_append, List.length_map, List.length_map] at hlength
    rw [hlength, countLines]
    split
    · rw [List.length_singleton, Nat.add_sub_cancel]
    · rfl
  · intro number hfirst hlast
    obtain ⟨i, hi⟩ : ∃ i : Nat, number = 1 + i := ⟨(number - 1).toNat, by omega⟩
    rw [countLines] at hlast
    have hlt : i < (tree.lines file).length := by omega
    have hline : (tree.lines file)[i]? = some (tree.lines file)[i] := List.getElem?_eq_getElem hlt
    obtain ⟨piece, hpiece, hpieceLine⟩ := exists_piece_of_line hread hpaired hends hline
    refine ⟨(tree.lines file)[i], ?_, fun target radius => ?_⟩
    · rw [line?_eq_getElem? tree file hi, hline]
    · obtain ⟨snippet, hsnippet, -, hmem⟩ := Snippet.exists_ofFile? hread target radius
      refine ⟨snippet, hsnippet, fun shown => ?_⟩
      rw [hmem, ← hpieceLine]
      refine and_congr_right fun _ => ⟨?_, fun hshown => ⟨i, hi, piece, hpiece, hshown⟩⟩
      rintro ⟨j, hj, other, hother, hshown⟩
      obtain rfl : j = i := by omega
      rw [hpiece, Option.some_inj] at hother
      rw [hshown, hother]

/-- A line with a carriage return for its last character that is shown, and a line that is not
ended. -/
def cutContent : List UInt8 := List.replicate 249 0x61 ++ [0x0D, 0x0A, 0x62]

def cutTree : Tree := ⟨[(["a.php"], .file cutContent true)]⟩

/-- The file has two lines. The snippet around the second shows the first as well, without its
carriage return. -/
theorem lines_numberedAlike_cutContent :
    cutTree.read? (Path.ofString "a.php") = some cutContent ∧ IsPaired (decode cutContent) ∧
      (∀ c ∈ decode cutContent, c.toNat ∉ Text.otherLineEnds) ∧
      cutTree.countLines "a.php" = 2 ∧
      cutTree.line? "a.php" 1 = some (List.replicate 249 'a' ++ ['\n']) ∧
      ∃ snippet, Snippet.ofFile? cutTree "a.php" 2 1 = some snippet ∧
        (1, .text (String.ofList (List.replicate 249 'a'))) ∈ snippet.lines := by
  have hread : cutTree.read? (Path.ofString "a.php") = some cutContent := by decide +kernel
  have hpaired : IsPaired (decode cutContent) := by decide +kernel
  have hends : ∀ c ∈ decode cutContent, c.toNat ∉ Text.otherLineEnds := by
    have hdecode : decode cutContent = List.replicate 249 'a' ++ ['\r', '\n', 'b'] := by
      decide +kernel
    intro c hc
    rw [hdecode, List.mem_append, List.mem_replicate] at hc
    rcases hc with ⟨-, rfl⟩ | hc
    · decide
    · simp only [List.mem_cons, List.not_mem_nil, or_false] at hc
      rcases hc with rfl | rfl | rfl <;> decide
  have hfirst : cutTree.line? "a.php" 1 = some (List.replicate 249 'a' ++ ['\n']) := by
    decide +kernel
  have htext : stripEnd ((withoutLast '\n' (List.replicate 249 'a' ++ ['\n'])).take 250) =
      List.replicate 249 'a' := by
    decide +kernel
  obtain ⟨hcount, hlines⟩ := lines_numberedAlike cutTree "a.php" hread hpaired hends
  have htwo : cutTree.countLines "a.php" = 2 := by
    rw [hcount]
    decide +kernel
  obtain ⟨line, hline, hshown⟩ := hlines 1 (by decide) (by rw [htwo]; decide)
  rw [hfirst, Option.some_inj] at hline
  obtain ⟨snippet, hsnippet, hmem⟩ := hshown 2 1
  rw [← hline, htext] at hmem
  have hwindow : (window (segments (decode cutContent)) 2 1).1 ≤ 1 ∧
      1 ≤ (window (segments (decode cutContent)) 2 1).2 := by
    decide +kernel
  exact ⟨hread, hpaired, hends, htwo, hfirst, snippet, hsnippet, (hmem _).mpr ⟨hwindow, rfl⟩⟩

end PhpAudit.Files.Tree
