import PhpAudit.Proofs.Data.Related
import PhpAudit.Proofs.Data.Spelling
import PhpAudit.Proofs.Text.Segments
import PhpAudit.Report.Console
import PhpAudit.Text.Blank

/-!
# How texts are set and written

All that a report asks of its printer is that it is faithful (`Printer.IsFaithful`): it takes some
controls out of a text, keeps its lines and the characters of each line in order, puts blanks in
place of tabs and may drop blanks at the end of a line. The standard printer is faithful
(`Printer.standard_isFaithful`). How a line is written is said literally (`inked`): a piece of it is
enclosed in a change of ink and the change back, if colours are asked for and there is anything to
enclose. So a text without controls and tabs is printed as just one line that says what the text
says (`Printer.IsFaithful.written_eq`).
-/

namespace PhpAudit.Report

/-! ## Faithful printers -/

/-- The controls that are taken out of texts: the bell, the backspace, the vertical tab, the form
feed and the carriage return. -/
def controls : List Char := ['\x07', '\x08', '\x0B', '\x0C', '\r']

/-- A line with blanks in place of each tab, at least one. -/
inductive Expands : List Char → List Char → Prop
  | nil : Expands [] []
  | char {c : Char} {line shown : List Char} (hc : c ≠ '\t') (h : Expands line shown) :
    Expands (c :: line) (c :: shown)
  | tab {line shown : List Char} (blanks : Nat) (h : Expands line shown) :
    Expands ('\t' :: line) (List.replicate (blanks + 1) ' ' ++ shown)

/-- The pieces of a line show all of it, but perhaps for blanks at its end. Only tabs cut it. -/
structure IsSet (line : List Char) (pieces : List (List Char)) : Prop where
  shown : ∃ dropped, (∀ c ∈ dropped, Text.isBlank c = true) ∧
    Expands line (pieces.flatten ++ dropped)
  whole : '\t' ∉ line → pieces.length ≤ 1

/-- The three lines that the title of a report takes. -/
def titleRows : List (List Char) :=
  [['╭'] ++ List.replicate 58 '─' ++ ['╮'],
    "│ Analysis Report".toList ++ List.replicate 42 ' ' ++ ['│'],
    ['╰'] ++ List.replicate 58 '─' ++ ['╯']]

/-- A printer sets a text line by line, without the controls that are taken out, and puts the title
of a report in a frame. -/
structure Printer.IsFaithful (printer : Printer) : Prop where
  set (text : List Char) : List.Forall₂ IsSet ((text.filter fun c => c ∉ controls).splitOn '\n')
    (printer.set text)
  frame : (printer.frame 60 "Analysis Report".toList).map List.flatten = titleRows

/-! ## The standard printer -/

/-- The controls that are dropped are the listed ones. -/
theorem isControl_iff {c : Char} : isControl c = true ↔ c ∈ controls := by
  simp [isControl, controls, ← Char.toNat_inj, or_assoc]

theorem tabFields_ne_nil (line : List Char) : tabFields line ≠ [] := by
  cases line with
  | nil => exact List.cons_ne_nil _ _
  | cons c rest =>
    rw [tabFields]
    split
    · exact List.cons_ne_nil _ _
    · split <;> exact List.cons_ne_nil _ _

/-- A tab is at least one blank wide. -/
theorem tabBlanks_pos (cells : Nat) : 0 < tabBlanks cells :=
  Nat.sub_pos_of_lt (Nat.mod_lt cells (by decide))

/-- The first character of a field is set in front of what follows it. -/
theorem flatten_expandTabs_cons (cells : Nat) (c : Char) (field : List Char) (closed : Bool)
    (more : List (List Char × Bool)) :
    (expandTabs cells ((c :: field, closed) :: more)).flatten =
      c :: (expandTabs (cells + Text.cellWidth c) ((field, closed) :: more)).flatten := by
  have hcells : cells + Text.cellsOf (c :: field) =
      cells + Text.cellWidth c + Text.cellsOf field := (Nat.add_assoc _ _ _).symm
  cases closed <;> simp [expandTabs, hcells]

/-- The fields of a line with their blanks expand the line. -/
theorem expands_expandTabs (cells : Nat) (line : List Char) :
    Expands line (expandTabs cells (tabFields line)).flatten := by
  induction line generalizing cells with
  | nil => exact .nil
  | cons c rest ih =>
    rw [tabFields]
    split
    next hc =>
      -- a tab is filled up by at least one blank, as it must be to expand
      obtain ⟨blanks, hblanks⟩ := Nat.exists_eq_add_one.mpr (tabBlanks_pos (cells + 0))
      rw [hc, expandTabs, if_pos rfl, List.flatten_cons, List.nil_append]
      change Expands _ (List.replicate (tabBlanks (cells + 0)) ' ' ++ _)
      rw [hblanks]
      exact .tab blanks (ih _)
    next hc =>
      cases hmore : tabFields rest with
      | nil => exact absurd hmore (tabFields_ne_nil rest)
      | cons head more =>
        rw [flatten_expandTabs_cons, ← hmore]
        exact .char hc (ih _)

/-- What has no tab is not cut. -/
theorem tabFields_of_notMem {line : List Char} (h : '\t' ∉ line) :
    tabFields line = [(line, false)] := by
  induction line with
  | nil => rfl
  | cons c rest ih =>
    rw [List.mem_cons, not_or] at h
    rw [tabFields, if_neg (Ne.symm h.1), ih h.2]

/-- A line is set as its fields with their tabs expanded. -/
theorem isSet_expandTabs (line : List Char) : IsSet line (expandTabs 0 (tabFields line)) where
  shown := by
    refine ⟨[], nofun, ?_⟩
    rw [List.append_nil]
    exact expands_expandTabs 0 line
  whole h := by
    rw [tabFields_of_notMem h]
    exact Nat.le_refl 1

/-- **The standard printer is faithful.** -/
theorem Printer.standard_isFaithful : Printer.standard.IsFaithful where
  set text := by
    have hkept : (text.filter fun c => !isControl c) = text.filter fun c => c ∉ controls := by
      refine List.filter_congr fun c _ => ?_
      rw [Bool.eq_iff_iff, decide_eq_true_iff, ← isControl_iff, Bool.not_eq_true',
        Bool.not_eq_true]
    change List.Forall₂ IsSet _ (setText text)
    rw [setText, hkept, ← Text.segments_eq_splitOn, List.forall₂_map_right_iff]
    exact List.forall₂_same.mpr fun line _ => isSet_expandTabs line
  frame := by decide +kernel

/-! ## What is set -/

section expands

variable {line shown : List Char} {c : Char}

/-- Nothing is shown but the characters of the line and blanks. -/
theorem Expands.eq_or_mem (h : Expands line shown) (hc : c ∈ shown) : c = ' ' ∨ c ∈ line := by
  induction h with
  | nil => cases hc
  | char _ _ ih =>
    rcases List.mem_cons.mp hc with rfl | hc
    · exact .inr List.mem_cons_self
    · exact (ih hc).imp_right (List.mem_cons_of_mem _)
  | tab _ _ ih =>
    rcases List.mem_append.mp hc with hc | hc
    · exact .inl (List.eq_of_mem_replicate hc)
    · exact (ih hc).imp_right (List.mem_cons_of_mem _)

/-- No character of the line is lost but tabs. -/
theorem Expands.mem (h : Expands line shown) (hc : c ∈ line) (htab : c ≠ '\t') : c ∈ shown := by
  induction h with
  | nil => cases hc
  | char _ _ ih =>
    rcases List.mem_cons.mp hc with rfl | hc
    · exact List.mem_cons_self
    · exact List.mem_cons_of_mem _ (ih hc)
  | tab _ _ ih =>
    exact List.mem_append_right _ (ih (List.mem_of_ne_of_mem htab hc))

/-- What has no tab is shown as it is. -/
theorem Expands.eq_of_notMem (h : Expands line shown) (htab : '\t' ∉ line) : shown = line := by
  induction h with
  | nil => rfl
  | char _ _ ih =>
    rw [List.mem_cons, not_or] at htab
    rw [ih htab.2]
  | tab => exact absurd List.mem_cons_self htab

end expands

namespace Printer.IsFaithful

variable {printer : Printer} {text : List Char} {c : Char}

/-- A printer sets nothing but the characters of a text, without line feeds, and blanks. -/
theorem eq_or_mem (h : printer.IsFaithful) {pieces : List (List Char)}
    (hpieces : pieces ∈ printer.set text) {chars : List Char} (hchars : chars ∈ pieces)
    (hc : c ∈ chars) : c = ' ' ∨ c ∈ text ∧ c ≠ '\n' := by
  obtain ⟨line, hline, hset⟩ := Data.exists_mem_left (h.set text) hpieces
  obtain ⟨dropped, -, hshown⟩ := hset.shown
  refine (hshown.eq_or_mem (List.mem_append_left _ (List.mem_flatten.mpr ⟨_, hchars, hc⟩))).imp_right
    fun hmem => ?_
  rw [← Text.segments_eq_splitOn] at hline
  obtain ⟨hmem, hne⟩ := Text.mem_of_mem_segments hline hmem
  exact ⟨List.mem_of_mem_filter hmem, hne⟩

/-- A printer sets every character of a text that is neither a blank nor a control that it takes
out. -/
theorem exists_mem (h : printer.IsFaithful) (hc : c ∈ text) (hcontrol : c ∉ controls)
    (hfeed : c ≠ '\n') (htab : c ≠ '\t') (hblank : Text.isBlank c = false) :
    ∃ pieces ∈ printer.set text, ∃ chars ∈ pieces, c ∈ chars := by
  have hkept : c ∈ text.filter fun c => c ∉ controls :=
    List.mem_filter.mpr ⟨hc, decide_eq_true hcontrol⟩
  obtain ⟨line, hline, hmem⟩ := Text.exists_mem_segments hkept hfeed
  rw [Text.segments_eq_splitOn] at hline
  obtain ⟨pieces, hpieces, hset⟩ := Data.exists_mem_right (h.set text) hline
  obtain ⟨dropped, hdropped, hshown⟩ := hset.shown
  refine ⟨pieces, hpieces, List.mem_flatten.mp ?_⟩
  refine (List.mem_append.mp (hshown.mem hmem htab)).resolve_right fun hlost => ?_
  rw [hdropped c hlost] at hblank
  cases hblank

end Printer.IsFaithful

/-! ## Texts that take one line -/

/-- A text that takes one line and is shown as it is: it has no controls, and no blank at its end. -/
structure IsPlainLine (text : List Char) : Prop where
  visible : IsVisible text
  last : ∀ c ∈ text.getLast?, Text.isBlank c = false

theorem isPlainLine_nil : IsPlainLine [] := ⟨isVisible_nil, nofun⟩

/-- A text in front of a plain line makes a longer one. -/
theorem IsPlainLine.append {front back : List Char} (h : IsPlainLine back) (hne : back ≠ [])
    (hfront : IsVisible front) : IsPlainLine (front ++ back) where
  visible := hfront.append h.visible
  last := by
    rw [List.getLast?_append_of_ne_nil _ hne]
    exact h.last

/-- A literal text is a plain line by a look at its characters. -/
theorem isPlainLine_literal (s : String) (hvisible : s.toList.all (fun c => 0x20 ≤ c.toNat) = true)
    (hlast : s.toList.getLast?.all (fun c => !Text.isBlank c) = true) : IsPlainLine s.toList where
  visible := isVisible_literal s hvisible
  last c hc := by
    rw [Option.mem_def.mp hc, Option.all_some, Bool.not_eq_true'] at hlast
    exact hlast

/-- A number in decimal is a plain line. -/
theorem isPlainLine_toString (n : Nat) : IsPlainLine (toString n).toList := by
  have hdigit (c : Char) (hc : c ∈ Nat.toDigits 10 n) : c.isDigit = true :=
    Nat.isDigit_of_mem_toDigits (by decide) (by decide) hc
  have hblank : ∀ code < 58, 48 ≤ code → Text.blankRanges.contains code = false := by decide
  rw [Nat.toString_eq_repr, Nat.repr_eq_ofList_toDigits, String.toList_ofList]
  refine ⟨isVisible_digits hdigit, fun c hc => ?_⟩
  obtain ⟨hge, hle⟩ := Number.Integer.toNat_of_isDigit (hdigit c (List.mem_of_getLast? hc))
  exact hblank c.toNat (Nat.lt_succ_of_le hle) hge

/-- A printer sets a plain line as one piece on one line. -/
theorem Printer.IsFaithful.set_of_isPlainLine {printer : Printer} (h : printer.IsFaithful)
    {text : List Char} (htext : IsPlainLine text) :
    ∃ pieces, printer.set text = [pieces] ∧ pieces.flatten = text ∧ pieces.length ≤ 1 := by
  have hnone (c : Char) (hc : c.toNat < 0x20) : c ∉ text := fun hmem =>
    Nat.not_le.mpr hc (htext.visible c hmem)
  have hkept : (text.filter fun c => c ∉ controls) = text := by
    refine List.filter_eq_self.mpr fun c hc => decide_eq_true fun hcontrol => ?_
    have hcontrols : ∀ c ∈ controls, c.toNat < 0x20 := by simp [controls]
    exact hnone c (hcontrols c hcontrol) hc
  have hset := h.set text
  rw [hkept, ← Text.segments_eq_splitOn, Text.segments_of_notMem (hnone '\n' (by decide)),
    List.forall₂_cons_left_iff] at hset
  obtain ⟨pieces, _, hpieces, hnil, hone⟩ := hset
  cases hnil
  refine ⟨pieces, hone, ?_, hpieces.whole (hnone '\t' (by decide))⟩
  obtain ⟨dropped, hdropped, hshown⟩ := hpieces.shown
  have heq := hshown.eq_of_notMem (hnone '\t' (by decide))
  cases hlast : dropped.getLast? with
  | none =>
    rw [List.getLast?_eq_none_iff.mp hlast, List.append_nil] at heq
    exact heq
  | some c =>
    have hblank := htext.last c (by
      rw [← heq, List.getLast?_append, hlast]
      rfl)
    rw [hdropped c (List.mem_of_getLast? hlast)] at hblank
    cases hblank

/-! ## Lines as they are written -/

/-- The number that switches an ink on. -/
def inkNumber : Ink → List Char
  | .bold => ['1']
  | .colour .red => ['3', '1']
  | .colour .green => ['3', '2']
  | .colour .yellow => ['3', '3']
  | .colour .blue => ['3', '4']
  | .colour .gray => ['9', '0']
  | .colour .orange => ['9', '1']

/-- A text in an ink or in none, as it is written with colours or without: the text between a change
of ink and the change back, or nothing but the text. -/
def inked (colours : Bool) (ink : Option Ink) (chars : List Char) : List Char :=
  match ink with
  | none => chars
  | some ink =>
    if colours = true ∧ chars ≠ [] then
      ['\x1b', '['] ++ inkNumber ink ++ ['m'] ++ chars ++ ['\x1b', '[', '0', 'm']
    else chars

/-- The lines of a text in an ink, when it has been cut into pieces. -/
def inkedLines (colours : Bool) (ink : Option Ink) (lines : List (List (List Char))) :
    List (List Char) :=
  lines.map fun pieces => pieces.flatMap (inked colours ink)

/-- The line of an item whose text takes no more than one. -/
def Item.line (colours : Bool) (item : Item) : List Char :=
  inked colours item.ink item.text.toList

/-- The lines that a printer writes for an item. -/
def Item.written (printer : Printer) (colours : Bool) (item : Item) : List (List Char) :=
  inkedLines colours item.ink (printer.set item.text.toList)

/-- The lines that a printer writes for the title. -/
def Printer.titleLines (printer : Printer) (colours : Bool) : List (List Char) :=
  inkedLines colours (some .bold) (printer.frame 60 "Analysis Report".toList)

/-- The sequence that starts an ink: the escape, a bracket, its number and an m. -/
theorem start_eq (ink : Ink) : ink.start = ['\x1b', '['] ++ inkNumber ink ++ ['m'] := by
  rcases ink with _ | (_ | _ | _ | _ | _ | _) <;> rfl

/-- Pieces are written in their ink. -/
theorem written_eq_inked (colours : Bool) (ink : Option Ink) (chars : List Char) :
    Piece.written colours ⟨ink, chars⟩ = inked colours ink chars := by
  cases ink with
  | none => cases colours <;> rfl
  | some ink =>
    cases colours with
    | false => rfl
    | true =>
      cases chars with
      | nil => rfl
      | cons c rest =>
        rw [inked, if_pos ⟨rfl, List.cons_ne_nil c rest⟩, ← start_eq]
        rfl

/-- Lines in an ink are written one after the other, each with a line feed behind it. -/
theorem flatMap_writtenLine (colours : Bool) (ink : Option Ink) (lines : List (List (List Char))) :
    (inInk ink lines).flatMap (writtenLine colours) =
      (inkedLines colours ink lines).flatMap (· ++ ['\n']) := by
  simp only [inInk, inkedLines, List.flatMap_map, writtenLine, written_eq_inked]

theorem inked_nil (colours : Bool) (ink : Option Ink) : inked colours ink [] = [] := by
  cases ink with
  | none => rfl
  | some ink => exact if_neg fun h => h.2 rfl

/-- Without colours a piece is printed as it is. -/
theorem inked_false (ink : Option Ink) (chars : List Char) : inked false ink chars = chars := by
  cases ink with
  | none => rfl
  | some ink =>
    rw [inked, if_neg]
    exact fun h => Bool.false_ne_true h.1

/-- Without colours, lines are written piece by piece. -/
theorem inkedLines_false (ink : Option Ink) (lines : List (List (List Char))) :
    inkedLines false ink lines = lines.map List.flatten := by
  refine List.map_congr_left fun pieces _ => ?_
  rw [List.flatten_eq_flatMap]
  exact List.flatMap_congr fun chars _ => inked_false ink chars

/-- A change of ink has no line feed. -/
theorem notMem_inked {colours : Bool} {ink : Option Ink} {chars : List Char} (h : '\n' ∉ chars) :
    '\n' ∉ inked colours ink chars := by
  have hnumber : ∀ ink, '\n' ∉ inkNumber ink := by
    rintro (_ | (_ | _ | _ | _ | _ | _)) <;> decide
  cases ink with
  | none => exact h
  | some ink =>
    rw [inked]
    split
    · simp [h, hnumber ink]
    · exact h

/-- Inking the pieces of lines adds no line feed. -/
theorem notMem_inkedLines {colours : Bool} {ink : Option Ink} {lines : List (List (List Char))}
    (h : ∀ pieces ∈ lines, ∀ chars ∈ pieces, '\n' ∉ chars) :
    ∀ line ∈ inkedLines colours ink lines, '\n' ∉ line := by
  intro line hline hfeed
  obtain ⟨pieces, hpieces, rfl⟩ := List.mem_map.mp hline
  obtain ⟨chars, hchars, hmem⟩ := List.mem_flatMap.mp hfeed
  exact notMem_inked (h pieces hpieces chars hchars) hmem

namespace Printer.IsFaithful

variable {printer : Printer} {colours : Bool}

/-- No line of an item has a line feed. -/
theorem notMem_written (h : printer.IsFaithful) (item : Item) :
    ∀ line ∈ item.written printer colours, '\n' ∉ line := by
  refine notMem_inkedLines fun pieces hpieces chars hchars hfeed => ?_
  rcases h.eq_or_mem hpieces hchars hfeed with hblank | ⟨-, hne⟩
  · exact absurd hblank (by decide)
  · exact hne rfl

/-- The title shows what the frame has. -/
theorem mem_titleRows (h : printer.IsFaithful) {pieces : List (List Char)}
    (hpieces : pieces ∈ printer.frame 60 "Analysis Report".toList) {chars : List Char}
    (hchars : chars ∈ pieces) {c : Char} (hc : c ∈ chars) : ∃ row ∈ titleRows, c ∈ row :=
  ⟨pieces.flatten, h.frame ▸ List.mem_map_of_mem hpieces, List.mem_flatten.mpr ⟨chars, hchars, hc⟩⟩

/-- No line of the title has a line feed. -/
theorem notMem_titleLines (h : printer.IsFaithful) :
    ∀ line ∈ printer.titleLines colours, '\n' ∉ line := by
  refine notMem_inkedLines fun pieces hpieces chars hchars hfeed => ?_
  obtain ⟨row, hrow, hmem⟩ := h.mem_titleRows hpieces hchars hfeed
  have hrows : ∀ row ∈ titleRows, '\n' ∉ row := by decide +kernel
  exact hrows row hrow hmem

/-- Without colours, the title is written as it is. -/
theorem titleLines_false (h : printer.IsFaithful) : printer.titleLines false = titleRows := by
  rw [titleLines, inkedLines_false, h.frame]

/-- **A plain line is printed as it is**, in the ink of its item. -/
theorem written_eq (h : printer.IsFaithful) {item : Item} (htext : IsPlainLine item.text.toList) :
    item.written printer colours = [item.line colours] := by
  obtain ⟨pieces, hset, hpieces, hlength⟩ := h.set_of_isPlainLine htext
  rw [Item.written, inkedLines, hset, List.map_singleton, Item.line, ← hpieces]
  cases pieces with
  | nil => rw [List.flatMap_nil, List.flatten_nil, inked_nil]
  | cons chars more =>
    obtain rfl : more = [] := List.eq_nil_of_length_eq_zero (Nat.le_zero.mp
      (Nat.le_of_succ_le_succ hlength))
    rw [List.flatMap_singleton, List.flatten_singleton]

/-- Plain lines are printed one below the other. -/
theorem flatMap_written_eq (h : printer.IsFaithful) {items : List Item}
    (htexts : ∀ item ∈ items, IsPlainLine item.text.toList) :
    items.flatMap (Item.written printer colours) = items.map (Item.line colours) := by
  induction items with
  | nil => rfl
  | cons item items ih =>
    obtain ⟨htext, htexts⟩ := List.forall_mem_cons.mp htexts
    rw [List.flatMap_cons, h.written_eq htext, ih htexts, List.map_cons, List.singleton_append]

end Printer.IsFaithful

end PhpAudit.Report
