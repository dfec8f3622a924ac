import PhpAudit.Files.Text
import PhpAudit.Proofs.Snippet.Numbered
import PhpAudit.Proofs.Text.Lines

/-!
# Lines around a line

The lines of a file around one of them are taken in two ways: as the range of those that have the
numbers, and as a slice between two indexes. The range leaves out the numbers that no line has. The
slice does so as well where the file ends; where the file begins only its start is kept at the first
line, and an end in front of that is counted from behind.

`rawSnippet?_eq_rangeText_iff` says when the two come to the same text: unless the last number lies
so little below zero that lines are left in front of it when it is counted from behind. In that case
the range is empty and the slice is the beginning of the file.
-/

namespace PhpAudit.Files.Tree

variable {tree : Tree} {file : String} {content : List UInt8}

/-- The text of the lines of a file from a first number to a last. -/
def rangeText (tree : Tree) (file : String) (first last : Int) : List Char :=
  (tree.lineRange file first last).flatMap Prod.snd

/-! ## Readable files -/

theorem text?_of_read? (hread : tree.read? (Path.ofString file) = some content) :
    tree.text? file = some (textOf content) := by
  rw [text?, hread, Option.map_some]

theorem lines_of_read? (hread : tree.read? (Path.ofString file) = some content) :
    tree.lines file = Text.linesWithEnds (textOf content) := by
  rw [lines, text?_of_read? hread]

/-- The raw text around a line is that of a slice of the lines. -/
theorem rawSnippet?_of_read? (hread : tree.read? (Path.ofString file) = some content)
    (line radius : Int) :
    tree.rawSnippet? file line radius = some (slice (tree.lines file) (line - radius - 1).toNat
      (min (tree.countLines file : Int) (line + radius))).flatten := by
  rw [rawSnippet?, text?_of_read? hread, Option.map_some, countLines, lines_of_read? hread]

/-- A range holds the lines of the file whose numbers lie between its bounds: looking up each of these
numbers that the file has comes to the same. -/
theorem lineRange_eq_filter (tree : Tree) (file : String) (first last : Int) :
    tree.lineRange file first last =
      (Snippet.numberedFrom 1 (tree.lines file)).filter fun line =>
        first ≤ line.1 && line.1 ≤ last := by
  have hlookup : tree.lineRange file first last =
      (Snippet.numbers (max first 1) last).filterMap fun n =>
        (Snippet.lineUnder? (tree.lines file) n).map fun line => (n, line) := by
    refine List.filterMap_congr fun n hn => ?_
    have hpos : ¬ n < 1 := by
      have := (Int.mem_range_iff.mp hn).1
      omega
    rw [Snippet.lineUnder?, if_neg hpos]
    split
    next => rfl
    next hout => rw [List.getElem?_eq_none (by omega), Option.map_none]
  rw [hlookup, Snippet.filterMap_lineUnder?]
  refine List.filter_congr fun line hline => ?_
  have hpos : 1 ≤ line.1 := by
    obtain ⟨i, -, hi⟩ := Snippet.mem_numberedFrom.mp hline
    omega
  rw [Bool.eq_iff_iff]
  simp only [Bool.and_eq_true, decide_eq_true_eq]
  omega

/-- The text of a range is that of the lines between two indexes, both kept in the file. -/
theorem rangeText_eq (tree : Tree) (file : String) (first last : Int) :
    tree.rangeText file first last =
      (((tree.lines file).take last.toNat).drop (first - 1).toNat).flatten := by
  rw [rangeText, lineRange_eq_filter, Snippet.filter_numberedFrom, List.flatMap_def,
    Snippet.map_snd_numberedFrom, Int.add_sub_cancel]

/-! ## Slices -/

/-- An end that is not below zero is kept in the file. -/
theorem slice_of_nonneg (lines : List (List Char)) (start : Nat) {stop : Int} (h : 0 ≤ stop) :
    slice lines start (min lines.length stop) = (lines.take stop.toNat).drop start := by
  have hnonneg : ¬ min (lines.length : Int) stop < 0 := by omega
  simp only [slice, if_neg hnonneg]
  rcases Int.le_total lines.length stop with hle | hle
  · rw [min_eq_left hle, List.take_of_length_le (by omega), List.take_of_length_le (by omega)]
  · rw [min_eq_right hle]

/-- An end below zero is counted from behind. -/
theorem slice_of_neg (lines : List (List Char)) {stop : Int} (h : stop < 0) :
    slice lines 0 (min lines.length stop) = lines.take (lines.length + stop).toNat := by
  have hmin : min (lines.length : Int) stop = stop := by omega
  simp only [slice, hmin, if_pos h, List.drop_zero]

/-- Some lines of a file have no text only if there are none. -/
theorem flatten_take_lines_eq_nil_iff {count : Nat} :
    ((tree.lines file).take count).flatten = [] ↔ count = 0 ∨ tree.countLines file = 0 := by
  have hlines : ∀ line ∈ tree.lines file, line ≠ [] := by
    rw [lines]
    split
    next => exact fun line => Text.ne_nil_of_mem_linesWithEnds
    next => exact nofun
  rw [countLines, List.length_eq_zero_iff, ← List.take_eq_nil_iff]
  constructor
  · intro h
    rw [List.flatten_eq_nil_iff] at h
    refine List.eq_nil_iff_forall_not_mem.mpr fun line hline => ?_
    exact hlines line (List.mem_of_mem_take hline) (h line hline)
  · intro h
    rw [h, List.flatten_nil]

/-! ## Raw text and ranges -/

/-- **The raw text around a line is that of the range, unless its end is counted from behind.** The
two are the same text exactly when the last number is not below zero, or so far below it that no
line is left. Otherwise the range has no lines, and the raw text is the beginning of the file. -/
theorem rawSnippet?_eq_rangeText_iff (tree : Tree) (file : String) {content : List UInt8}
    (hread : tree.read? (Path.ofString file) = some content) (line radius : Int)
    (hradius : 0 ≤ radius) :
    (tree.rawSnippet? file line radius =
        some (tree.rangeText file (line - radius) (line + radius)) ↔
      0 ≤ line + radius ∨ tree.countLines file + (line + radius) ≤ 0) ∧
    (line + radius < 0 →
      tree.lineRange file (line - radius) (line + radius) = [] ∧
      tree.rawSnippet? file line radius =
        some ((tree.lines file).take (tree.countLines file + (line + radius)).toNat).flatten) := by
  rw [rawSnippet?_of_read? hread, Option.some_inj, Option.some_inj, rangeText_eq, countLines]
  rcases Int.lt_or_le (line + radius) 0 with hneg | hnonneg
  · have hstart : (line - radius - 1).toNat = 0 := by omega
    have hnone : (line + radius).toNat = 0 := by omega
    have hrange : tree.lineRange file (line - radius) (line + radius) = [] := by
      rw [lineRange_eq_filter, Snippet.filter_numberedFrom, Int.add_sub_cancel, hnone, List.take_zero,
        List.drop_nil, Snippet.numberedFrom]
    rw [hstart, slice_of_neg _ hneg, hnone, List.take_zero, List.drop_zero, List.flatten_nil,
      flatten_take_lines_eq_nil_iff, countLines]
    exact ⟨by omega, fun _ => ⟨hrange, rfl⟩⟩
  · rw [slice_of_nonneg _ _ hnonneg]
    exact ⟨iff_of_true rfl (.inl hnonneg), fun hneg => absurd hneg (by omega)⟩

/-- A file of two lines. -/
def twoLineTree : Tree := ⟨[(["a.php"], .file [0x61, 0x0A, 0x62, 0x0A] true)]⟩

/-- Around line zero, one line to either side, both are the first line. -/
theorem rawSnippet?_eq_rangeText_twoLines :
    twoLineTree.read? (Path.ofString "a.php") = some [0x61, 0x0A, 0x62, 0x0A] ∧
      twoLineTree.rangeText "a.php" (0 - 1) (0 + 1) = ['a', '\n'] ∧
      twoLineTree.rawSnippet? "a.php" 0 1 =
        some (twoLineTree.rangeText "a.php" (0 - 1) (0 + 1)) := by
  have hread : twoLineTree.read? (Path.ofString "a.php") = some [0x61, 0x0A, 0x62, 0x0A] := by
    decide
  refine ⟨hread, by decide, ?_⟩
  exact (rawSnippet?_eq_rangeText_iff twoLineTree "a.php" hread 0 1 (by decide)).1.mpr
    (.inl (by decide))

/-- Line minus one is no line of the file, but the raw text around it is the first line. -/
theorem rawSnippet?_ne_rangeText_twoLines :
    twoLineTree.read? (Path.ofString "a.php") = some [0x61, 0x0A, 0x62, 0x0A] ∧
      twoLineTree.rawSnippet? "a.php" (-1) 0 = some ['a', '\n'] ∧
      twoLineTree.rangeText "a.php" (-1 - 0) (-1 + 0) = [] ∧
      twoLineTree.rawSnippet? "a.php" (-1) 0 ≠
        some (twoLineTree.rangeText "a.php" (-1 - 0) (-1 + 0)) := by
  decide

end PhpAudit.Files.Tree
