import PhpAudit.Proofs.Files.Numbering

/-!
# The lines of a file

A file that can be read is its lines, one after the other, each with what ends it, and no line end is
anywhere else (`lines_partition_text`). A number stands for a line from one up to the number of
lines. A range holds the lines that its numbers stand for, whatever its bounds are: they may lie
outside the file or be the wrong way round.
-/

namespace PhpAudit.Files.Tree

variable {tree : Tree} {file : String}

/-! ## The text of a file -/

theorem lines_of_text? {text : List Char} (h : tree.text? file = some text) :
    tree.lines file = Text.linesWithEnds text := by
  rw [lines, h]

/-- No carriage returns are left in a text that was read. -/
theorem return_notMem_text {text : List Char} (h : tree.text? file = some text) :
    '\r' ∉ text := by
  obtain ⟨content, -, rfl⟩ := Option.map_eq_some_iff.mp h
  intro hreturn
  rcases Text.mem_withLineFeeds hreturn with heq | ⟨-, hne⟩
  · exact absurd heq (by decide)
  · exact hne rfl

/-- A line of a file holds a line end only as its last character. -/
theorem eq_nil_of_mem_lineEnds {text front back : List Char} {c : Char}
    (h : tree.text? file = some text) (hline : front ++ c :: back ∈ tree.lines file)
    (hc : c ∈ Text.lineEnds) : back = [] := by
  rw [lines_of_text? h] at hline
  refine (Text.areLines_linesWithEnds text).eq_nil_of_isLineEnd hline ?_
    (Text.isLineEnd_iff_mem.mpr hc)
  intro hreturn
  apply return_notMem_text h
  rw [← Text.flatten_linesWithEnds text]
  exact List.mem_flatten_of_mem hline hreturn

/-! ## Lines by number -/

/-- The line that a number stands for. -/
theorem line?_eq_some_iff {number : Int} {line : List Char} :
    tree.line? file number = some line ↔
      ∃ i : Nat, (tree.lines file)[i]? = some line ∧ number = 1 + i := by
  constructor
  · intro h
    have hpos : 1 ≤ number := by
      by_contra hlow
      simp [line?, Int.not_le.mp hlow] at h
    obtain ⟨i, hi⟩ := Int.eq_ofNat_of_zero_le (Int.sub_nonneg_of_le hpos)
    have hnumber : number = 1 + i := by omega
    rw [line?_eq_getElem? tree file hnumber] at h
    exact ⟨i, h, hnumber⟩
  · rintro ⟨i, hline, hnumber⟩
    rw [line?_eq_getElem? tree file hnumber, hline]

/-- A number stands for a line if it is one of the numbers of lines. -/
theorem isSome_line?_iff (tree : Tree) (file : String) (number : Int) :
    (tree.line? file number).isSome = true ↔ 1 ≤ number ∧ number ≤ tree.countLines file := by
  rw [Option.isSome_iff_exists]
  simp only [line?_eq_some_iff, List.getElem?_eq_some_iff, countLines]
  constructor
  · rintro ⟨line, i, ⟨hi, -⟩, rfl⟩
    omega
  · rintro ⟨hfirst, hlast⟩
    have hi : (number - 1).toNat < (tree.lines file).length := by omega
    exact ⟨_, (number - 1).toNat, ⟨hi, rfl⟩, by omega⟩

/-- A range holds the lines that its numbers stand for. -/
theorem mem_lineRange_iff {first last number : Int} {line : List Char} :
    (number, line) ∈ tree.lineRange file first last ↔
      (first ≤ number ∧ number ≤ last) ∧ tree.line? file number = some line := by
  rw [lineRange_eq_filter, List.mem_filter, Snippet.mem_numberedFrom, line?_eq_some_iff, and_comm]
  simp only [Bool.and_eq_true, decide_eq_true_eq]

/-- The numbers of a range ascend. -/
theorem pairwise_lineRange (tree : Tree) (file : String) (first last : Int) :
    ((tree.lineRange file first last).map Prod.fst).Pairwise (· < ·) := by
  rw [lineRange_eq_filter, Snippet.filter_numberedFrom, Snippet.map_fst_numberedFrom]
  exact Snippet.pairwise_range _ _

/-! ## Lines and text -/

/-- **A file is its lines.** Put together, the lines of a readable file are its text. A line end of
Unicode is nowhere in a line but at its end, and only the last line may have none there. There is a
line for every number from one to the number of lines and for no other, counted in the order of the
lines. A range holds, in ascending order, the numbers between its bounds for which there is a line,
each with that line. -/
theorem lines_partition_text (tree : Tree) (file : String) {text : List Char}
    (htext : tree.text? file = some text) :
    (tree.lines file).flatten = text ∧
    ((∀ line ∈ tree.lines file, ∀ front c back, line = front ++ c :: back →
        c ∈ Text.lineEnds → back = []) ∧
      ∀ line ∈ (tree.lines file).dropLast, ∃ c ∈ Text.lineEnds, line.getLast? = some c) ∧
    ((∀ number, (tree.line? file number).isSome = true ↔
        1 ≤ number ∧ number ≤ tree.countLines file) ∧
      ∀ i : Nat, tree.line? file (1 + i) = (tree.lines file)[i]?) ∧
    ∀ first last,
      ((tree.lineRange file first last).map Prod.fst).Pairwise (· < ·) ∧
      ∀ number line, (number, line) ∈ tree.lineRange file first last ↔
        (first ≤ number ∧ number ≤ last) ∧ tree.line? file number = some line := by
  refine ⟨?_, ⟨?_, ?_⟩, ⟨isSome_line?_iff tree file, fun i => line?_eq_getElem? tree file rfl⟩, ?_⟩
  · rw [lines_of_text? htext, Text.flatten_linesWithEnds]
  · intro line hline front c back heq hc
    rw [heq] at hline
    exact eq_nil_of_mem_lineEnds htext hline hc
  · intro line hline
    rw [lines_of_text? htext] at hline
    obtain ⟨c, hc, hlast⟩ := (Text.areLines_linesWithEnds text).getLast?_of_mem_dropLast hline
    exact ⟨c, Text.isLineEnd_iff_mem.mp hc, hlast⟩
  · intro first last
    exact ⟨pairwise_lineRange tree file first last, fun number line => mem_lineRange_iff⟩

/-- A file with a vertical tab, a carriage return in front of a line feed, and a line that is not
ended. -/
def threeLineTree : Tree :=
  ⟨[(["a.php"], .file [0x61, 0x0B, 0x62, 0x0D, 0x0A, 0x63] true)]⟩

/-- The file has three lines. A range from below the first number to the second holds two. -/
theorem lines_partition_text_threeLines :
    threeLineTree.text? "a.php" = some ['a', '\x0b', 'b', '\n', 'c'] ∧
      threeLineTree.lines "a.php" = [['a', '\x0b'], ['b', '\n'], ['c']] ∧
      (threeLineTree.lines "a.php").flatten = ['a', '\x0b', 'b', '\n', 'c'] ∧
      (threeLineTree.line? "a.php" 3).isSome = true ∧
      (threeLineTree.line? "a.php" 4).isSome = false ∧
      threeLineTree.line? "a.php" (1 + (1 : Nat)) = some ['b', '\n'] ∧
      (2, ['b', '\n']) ∈ threeLineTree.lineRange "a.php" (-5) 2 := by
  have htext : threeLineTree.text? "a.php" = some ['a', '\x0b', 'b', '\n', 'c'] := by decide
  have hlines : threeLineTree.lines "a.php" = [['a', '\x0b'], ['b', '\n'], ['c']] := by decide
  have hcount : threeLineTree.countLines "a.php" = 3 := by rw [countLines, hlines]; rfl
  obtain ⟨hflatten, -, ⟨hsome, hplace⟩, hrange⟩ :=
    lines_partition_text threeLineTree "a.php" htext
  have hsecond : threeLineTree.line? "a.php" (1 + (1 : Nat)) = some ['b', '\n'] := by
    rw [hplace, hlines]
    rfl
  refine ⟨htext, hlines, hflatten, ?_, ?_, hsecond, ?_⟩
  · rw [hsome, hcount]
    decide
  · rw [← Bool.not_eq_true, hsome, hcount]
    decide
  · exact ((hrange (-5) 2).2 2 _).mpr ⟨by decide, hsecond⟩

end PhpAudit.Files.Tree
