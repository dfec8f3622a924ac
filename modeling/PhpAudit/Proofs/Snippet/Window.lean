import PhpAudit.Proofs.Snippet.Numbered
import PhpAudit.Proofs.Text.Segments

/-!
# Where windows lie

A window is computed by clamps: both ends are pulled into the file, what is cut off at one end is
given to the other, and a signature may push both ends up. `window_eq` says what comes out of that:
the window starts at one line, `windowStart`, and runs over twice the radius from there as far as
the file goes. Everything else is read off that equation, because `windowStart` never lies above the
file and never so low that lines are lost at the end of it.

`ofFile?_lines_placed` states what a snippet owes its reader, for every content, target and radius.
A target outside the file still gives a full window; a negative radius gives none.
-/

namespace PhpAudit.Snippet

open PhpAudit.Files

/-! ## The centred window -/

/-- Where the window around the target starts once it is slid into the file. -/
def slidStart (total target radius : Int) : Int :=
  min (max (target - radius) 1) (max (total - 2 * radius) 1)

/-- The clamps slide the window: it keeps its length as far as the file allows. -/
theorem centred_eq (total target radius : Int) :
    centred total target radius =
      (slidStart total target radius, min (slidStart total target radius + 2 * radius) total) := by
  simp only [centred, slidStart, Prod.mk.injEq]
  -- the window may be cut off at both ends, and each compensation reads the other end
  split <;> split <;> constructor <;> omega

/-! ## The signature above the target -/

/-- A signature that is found is one of the lines that are looked through. -/
theorem firstSignature?_mem {lines : List (Int × List Char)} {number : Int}
    (h : firstSignature? lines = some number) : ∃ line, (number, line) ∈ lines := by
  induction lines with
  | nil => cases h
  | cons head rest ih =>
    obtain ⟨n, line⟩ := head
    rw [firstSignature?] at h
    split at h
    · cases h
      exact ⟨line, List.mem_cons_self⟩
    · split at h
      · cases h
      · obtain ⟨found, hmem⟩ := ih h
        exact ⟨found, List.mem_cons_of_mem _ hmem⟩

/-- A signature lies in the file, above the target. -/
theorem signatureLine?_bounds {lines : List (List Char)} {target number : Int}
    (h : signatureLine? lines target = some number) :
    1 ≤ number ∧ number < target ∧ number ≤ lines.length := by
  obtain ⟨line, hmem⟩ := firstSignature?_mem h
  obtain ⟨hnumbered, hkept⟩ := List.mem_filter.mp (List.mem_reverse.mp hmem)
  have hrange := List.mem_map_of_mem (f := Prod.fst) hnumbered
  rw [map_fst_numberedFrom] at hrange
  have hfile := Int.mem_range_iff.mp hrange
  simp only [Bool.and_eq_true, decide_eq_true_eq] at hkept
  omega

/-- Where a window starts: at the signature when it lies above the slid window and enough lines stay
below the target, otherwise where the slid window does. -/
def windowStart (total target radius : Int) (signature : Option Int) : Int :=
  match signature with
  | some line =>
    if line < slidStart total target radius ∧ min 3 radius ≤ 2 * radius - (target - line) then line
    else slidStart total target radius
  | none => slidStart total target radius

/-- The whole window: it starts where `windowStart` says and has its full length below, as far as
the file goes. -/
theorem window_eq (lines : List (List Char)) (target radius : Int) :
    window lines target radius =
      (windowStart lines.length target radius (signatureLine? lines target),
        min (windowStart lines.length target radius (signatureLine? lines target) + 2 * radius)
          lines.length) := by
  rw [window, centred_eq]
  cases signatureLine? lines target with
  | none => rfl
  | some line =>
    simp only [extended, windowStart, Bool.and_eq_true, decide_eq_true_eq]
    split
    · simp only [Prod.mk.injEq, true_and]
      omega
    · rfl

/-! ## Where the window starts -/

variable {lines : List (List Char)} {target radius : Int}

/-- The window starts in the file, and so high that only the length of the file can shorten it. -/
theorem windowStart_bounds (lines : List (List Char)) (target radius : Int) :
    1 ≤ windowStart lines.length target radius (signatureLine? lines target) ∧
      windowStart lines.length target radius (signatureLine? lines target) ≤
        max (lines.length - 2 * radius) 1 := by
  have hslid : 1 ≤ slidStart lines.length target radius ∧
      slidStart lines.length target radius ≤ max (lines.length - 2 * radius) 1 := by
    unfold slidStart
    omega
  cases hs : signatureLine? lines target with
  | none => exact hslid
  | some line =>
    have hbounds := signatureLine?_bounds hs
    simp only [windowStart]
    split
    · omega
    · exact hslid

/-- A target in the file lies in the window, with the lines below it that a signature must leave. -/
theorem windowStart_target (hradius : 0 ≤ radius) (hfirst : 1 ≤ target)
    (hlast : target ≤ lines.length) :
    windowStart lines.length target radius (signatureLine? lines target) ≤ target ∧
      target + min (min 3 radius) (lines.length - target) ≤
        windowStart lines.length target radius (signatureLine? lines target) + 2 * radius := by
  have hslid : slidStart lines.length target radius ≤ target ∧
      target + min (min 3 radius) (lines.length - target) ≤
        slidStart lines.length target radius + 2 * radius := by
    unfold slidStart
    omega
  cases hs : signatureLine? lines target with
  | none => exact hslid
  | some line =>
    have hbounds := signatureLine?_bounds hs
    simp only [windowStart]
    split
    · omega
    · exact hslid

/-! ## The lines that are shown -/

/-- A window in the file shows the lines whose numbers it has, so that looking them up never fails. -/
theorem linesIn?_eq (lines : List (List Char)) {first last : Int} (hfirst : 1 ≤ first)
    (hlast : last ≤ lines.length) :
    linesIn? lines (first, last) =
      some (((numberedFrom 1 lines).filter fun line => first ≤ line.1 && line.1 ≤ last).map
        fun line => (line.1, shownLine line.2)) := by
  have hsome : ∀ n ∈ numbers first last,
      ((lineUnder? lines n).map fun line => (n, shownLine line)).isSome := by
    intro n hn
    obtain ⟨hlow, hhigh⟩ := Int.mem_range_iff.mp hn
    have hi : (n - 1).toNat < lines.length := by omega
    rw [Option.isSome_map, Option.isSome_iff_exists]
    exact ⟨_, lineUnder?_eq_some_iff.mpr ⟨_, List.getElem?_eq_getElem hi, by omega⟩⟩
  rw [linesIn?, mapM_eq_some_filterMap hsome, ← filterMap_lineUnder?, List.map_filterMap]
  simp only [Option.map_map, Function.comp_def]

/-- The numbers of the lines that a window keeps are its interval, when it lies in the file. -/
theorem map_fst_filter_numberedFrom (lines : List (List Char)) {first last : Int}
    (hfirst : 1 ≤ first) (hlast : last ≤ lines.length) :
    ((numberedFrom 1 lines).filter fun line => first ≤ line.1 && line.1 ≤ last).map Prod.fst =
      Int.range first (last + 1) := by
  have hlength : (((lines.take (last + 1 - 1).toNat).drop (first - 1).toNat).length : Int) =
      ((last + 1 - first).toNat : Int) := by
    rw [List.length_drop, List.length_take]
    omega
  rw [filter_numberedFrom, map_fst_numberedFrom, max_eq_left hfirst, hlength, Int.range, Int.range]
  congr 2
  omega

/-- What a snippet of a file of `total` lines owes its reader, told from the numbers of its lines.
The target is owed its place only when it is a line of the file. -/
structure Placed (total target radius : Int) (numbers : List Int) : Prop where
  /-- The lines follow one another, downwards. -/
  consecutive : numbers.IsChain fun a b => b = a + 1
  /-- They are lines of the file. -/
  inside : ∀ n ∈ numbers, 1 ≤ n ∧ n ≤ total
  /-- Nothing is lost at either end of the file, and nothing is shown for a negative radius. -/
  count : (numbers.length : Int) = if 0 ≤ radius then min (2 * radius + 1) total else 0
  /-- The target is among them. -/
  target_mem : 0 ≤ radius → 1 ≤ target → target ≤ total → target ∈ numbers
  /-- Some lines stay below the target, however far up the window reaches. -/
  count_below : 0 ≤ radius → 1 ≤ target → target ≤ total →
    min (min 3 radius) (total - target) ≤ numbers.countP fun n => target < n

/-- An interval is placed as it should be if its start is. -/
theorem Placed.of_range {total target radius first : Int} (hfirst : 1 ≤ first)
    (hhigh : first ≤ max (total - 2 * radius) 1) (htotal : 1 ≤ total)
    (htarget : 0 ≤ radius → 1 ≤ target → target ≤ total →
      first ≤ target ∧ target + min (min 3 radius) (total - target) ≤ first + 2 * radius) :
    Placed total target radius (Int.range first (min (first + 2 * radius) total + 1)) where
  consecutive := isChain_range _ _
  inside n hn := by
    have := Int.mem_range_iff.mp hn
    omega
  count := by
    rw [length_range]
    split <;> omega
  target_mem hradius h₁ h₂ := by
    have := htarget hradius h₁ h₂
    apply Int.mem_range_iff.mpr
    omega
  count_below hradius h₁ h₂ := by
    have := htarget hradius h₁ h₂
    rw [countP_lt_range this.1 (by omega)]
    omega

/-- The window around a target lies in the file, wherever the target lies. -/
theorem window_bounds (lines : List (List Char)) (target radius : Int) :
    1 ≤ (window lines target radius).1 ∧ (window lines target radius).2 ≤ lines.length := by
  rw [window_eq]
  exact ⟨(windowStart_bounds lines target radius).1, min_le_right _ _⟩

/-- **The snippet of a file.** A file that can be read has a snippet around every target at every
radius. Its lines are placed as they should be, and it shows the pieces of the decoded content whose
numbers its window has, cut and stripped. -/
theorem exists_ofFile? {tree : Tree} {file : String} {content : List UInt8}
    (hread : tree.read? (Path.ofString file) = some content) (target radius : Int) :
    ∃ snippet, ofFile? tree file target radius = some snippet ∧
      Placed (Text.segments (Text.Utf8.decode content)).length target radius
        (snippet.lines.map Prod.fst) ∧
      ∀ n shown, (n, shown) ∈ snippet.lines ↔
        ((window (Text.segments (Text.Utf8.decode content)) target radius).1 ≤ n ∧
          n ≤ (window (Text.segments (Text.Utf8.decode content)) target radius).2) ∧
        ∃ i : Nat, n = 1 + i ∧ ∃ piece, (Text.segments (Text.Utf8.decode content))[i]? = some piece ∧
          shown = .text (String.ofList (shownLine piece)) := by
  have htotal := Text.length_segments (Text.Utf8.decode content)
  simp only [ofFile?, hread, Option.bind_eq_bind, Option.bind_some, ofContent?, linesAround?]
  generalize Text.segments (Text.Utf8.decode content) = lines at htotal ⊢
  obtain ⟨hfirst, hlast⟩ := window_bounds lines target radius
  rw [linesIn?_eq lines hfirst hlast]
  refine ⟨_, rfl, ?_, fun n shown => ?_⟩
  · rw [List.map_map, List.map_map]
    change Placed _ target radius (List.map Prod.fst _)
    have hbounds := windowStart_bounds lines target radius
    rw [map_fst_filter_numberedFrom lines hfirst hlast, window_eq]
    exact .of_range hbounds.1 hbounds.2 (by omega) windowStart_target
  · simp only [List.mem_map, List.mem_filter, Prod.exists, mem_numberedFrom, Prod.mk.injEq,
      Bool.and_eq_true, decide_eq_true_eq]
    constructor
    · rintro ⟨_, _, ⟨_, piece, ⟨⟨i, hpiece, rfl⟩, hwindow⟩, rfl, rfl⟩, rfl, rfl⟩
      exact ⟨hwindow, i, rfl, piece, hpiece, rfl⟩
    · rintro ⟨hwindow, i, rfl, piece, hpiece, rfl⟩
      exact ⟨_, _, ⟨_, piece, ⟨⟨i, hpiece, rfl⟩, hwindow⟩, rfl, rfl⟩, rfl, rfl⟩

/-- **A snippet shows what it should.** A file that can be read has a snippet around every target at
every radius, and its lines are `Placed` in the file. -/
theorem ofFile?_lines_placed (tree : Tree) (file : String) {content : List UInt8}
    (hread : tree.read? (Path.ofString file) = some content) (target radius : Int) :
    ∃ snippet, ofFile? tree file target radius = some snippet ∧
      Placed (Text.segments (Text.Utf8.decode content)).length target radius
        (snippet.lines.map Prod.fst) := by
  obtain ⟨snippet, hsnippet, hplaced, -⟩ := exists_ofFile? hread target radius
  exact ⟨snippet, hsnippet, hplaced⟩

/-- The second of three lines, with one line on either side. -/
theorem ofFile?_lines_placed_three :
    ∃ snippet, ofFile? ⟨[(["a.php"], .file [0x61, 0x0A, 0x62, 0x0A, 0x63] true)]⟩ "a.php" 2 1 =
        some snippet ∧
      Placed (Text.segments (Text.Utf8.decode [0x61, 0x0A, 0x62, 0x0A, 0x63])).length 2 1
        (snippet.lines.map Prod.fst) :=
  ofFile?_lines_placed _ _ (by decide +kernel) 2 1

end PhpAudit.Snippet
