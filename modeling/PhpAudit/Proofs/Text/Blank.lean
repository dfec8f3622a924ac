import Mathlib.Data.List.TakeWhile
import PhpAudit.Text.Blank

/-!
# Stripped texts

Stripping takes the blanks from the two ends of a text and nothing else: a text between blanks that
has none at its own ends is what is left (`IsTight.strip_append`), and a character that is not blank
always stays (`mem_strip`).
-/

namespace PhpAudit.Text

/-- A text has no blank in front. -/
def IsFlush (text : List Char) : Prop := ∀ c ∈ text.head?, isBlank c = false

theorem IsFlush.append {front : List Char} (h : IsFlush front) (hfront : front ≠ [])
    (back : List Char) : IsFlush (front ++ back) := by
  cases front with
  | nil => exact absurd rfl hfront
  | cons c front => exact h

theorem isFlush_of_forall {text : List Char} (h : ∀ c ∈ text, isBlank c = false) : IsFlush text :=
  fun c hc => h c (List.mem_of_mem_head? hc)

/-- A text has no blanks at its ends. -/
def IsTight (text : List Char) : Prop := IsFlush text ∧ IsFlush text.reverse

theorem IsFlush.stripStart_append {blanks rest : List Char} (hrest : IsFlush rest)
    (hblanks : ∀ c ∈ blanks, isBlank c = true) : stripStart (blanks ++ rest) = rest := by
  rw [stripStart, List.dropWhile_append_of_pos hblanks]
  cases rest with
  | nil => rfl
  | cons c rest => rw [List.dropWhile_cons_of_neg (by rw [hrest c rfl]; exact Bool.false_ne_true)]

theorem isFlush_stripStart (text : List Char) : IsFlush (stripStart text) := by
  intro c hc
  have hnot := List.head?_dropWhile_not isBlank text
  rw [stripStart] at hc
  rw [hc] at hnot
  exact hnot

/-- The blanks behind a text are those in front of it, read backwards. -/
theorem stripEnd_eq_reverse (text : List Char) : stripEnd text = (stripStart text.reverse).reverse :=
  rfl

/-- What stands between blanks and has none at its own ends is left. -/
theorem IsTight.strip_append {blanks text more : List Char} (h : IsTight text) (htext : text ≠ [])
    (hblanks : ∀ c ∈ blanks, isBlank c = true) (hmore : ∀ c ∈ more, isBlank c = true) :
    strip (blanks ++ (text ++ more)) = text := by
  rw [strip, (h.1.append htext more).stripStart_append hblanks, stripEnd_eq_reverse,
    List.reverse_append, h.2.stripStart_append fun c hc => hmore c (List.mem_reverse.mp hc),
    List.reverse_reverse]

theorem mem_stripStart {text : List Char} {c : Char} (hc : c ∈ text) (h : isBlank c = false) :
    c ∈ stripStart text := by
  rw [← List.takeWhile_append_dropWhile (p := isBlank) (l := text), List.mem_append] at hc
  refine hc.resolve_left fun hmem => ?_
  rw [List.mem_takeWhile_imp hmem] at h
  cases h

/-- What is not blank stays. -/
theorem mem_strip {text : List Char} {c : Char} (hc : c ∈ text) (h : isBlank c = false) :
    c ∈ strip text := by
  rw [strip, stripEnd_eq_reverse, List.mem_reverse]
  exact mem_stripStart (List.mem_reverse.mpr (mem_stripStart hc h)) h

end PhpAudit.Text
