import Mathlib.Data.List.Basic
import PhpAudit.Number.Integer

/-!
# Integers are read back

The reader of integers takes more than the writer writes: blanks around the number, other digits,
underscores. None of that is in a written integer, so its parts are its sign and its digits as they
stand (`parts?_chars`), and these come to the integer (`ofParts_chars`).
-/

namespace PhpAudit.Number.Integer

/-! ## Written integers -/

theorem isDigit_of_mem_natChars {n : Nat} {c : Char} (h : c ∈ natChars n) : c.isDigit = true :=
  Nat.isDigit_of_mem_toDigits (by decide) (by decide) h

theorem natChars_ne_nil (n : Nat) : natChars n ≠ [] := Nat.toDigits_ne_nil

theorem toNat_of_isDigit {c : Char} (h : c.isDigit = true) : 48 ≤ c.toNat ∧ c.toNat ≤ 57 := by
  simpa [Char.isDigit, UInt32.le_iff_toNat_le] using h

/-- An integer is written in digits and the sign. -/
theorem mem_chars {n : Int} {c : Char} (h : c ∈ chars n) : c = '-' ∨ c.isDigit = true := by
  unfold chars at h
  split at h
  · exact (List.mem_cons.mp h).imp_right isDigit_of_mem_natChars
  · exact .inr (isDigit_of_mem_natChars h)

/-! ## Margins -/

/-- Code points from the sign to the last digit are no blanks. -/
theorem isMargin_eq_false {c : Char} (h : 45 ≤ c.toNat ∧ c.toNat ≤ 57) : isMargin c = false := by
  have hblank : Text.isBlank c = false := by
    simp only [Text.isBlank, Text.Ranges.contains, Text.blankRanges, List.any_cons, List.any_nil,
      Bool.or_false, Bool.or_eq_false_iff, Bool.and_eq_false_iff, decide_eq_false_iff_not]
    omega
  rw [isMargin, hblank, Bool.false_and]

/-- A text without blanks has no margins to lose. -/
theorem withoutMargins_eq_self {text : List Char} (h : ∀ c ∈ text, isMargin c = false) :
    withoutMargins text = text := by
  have hdrop (text : List Char) (h : ∀ c ∈ text, isMargin c = false) :
      text.dropWhile isMargin = text := by
    cases text with
    | nil => rfl
    | cons c rest => rw [List.dropWhile_cons_of_neg]; simp [h c List.mem_cons_self]
  rw [withoutMargins, hdrop text h, hdrop _ fun c hc => h c (List.mem_reverse.mp hc),
    List.reverse_reverse]

/-- A written integer has no margins. -/
theorem withoutMargins_chars (n : Int) : withoutMargins (chars n) = chars n := by
  refine withoutMargins_eq_self fun c hc => isMargin_eq_false ?_
  rcases mem_chars hc with rfl | hdigit
  · decide
  · have := toNat_of_isDigit hdigit
    omega

/-! ## Digits -/

/-- The value of an ASCII digit. -/
def valueOfDigit (c : Char) : Nat := c.toNat - 48

/-- An ASCII digit has its value. -/
theorem digitValue?_of_isDigit {c : Char} (h : c.isDigit = true) :
    Text.digitValue? c = some (valueOfDigit c) := by
  have hcode := toNat_of_isDigit h
  rw [Text.digitValue?, if_pos (by omega), if_pos h]
  rfl

/-- A text of digits is read digit by digit. -/
theorem digits?_eq_map {text : List Char} (hne : text ≠ []) (h : ∀ c ∈ text, c.isDigit = true) :
    digits? text = some (text.map valueOfDigit) := by
  fun_induction digits? text with
  | case1 => exact absurd rfl hne
  | case2 c => rw [digitValue?_of_isDigit (h c List.mem_cons_self)]; rfl
  | case3 c rest ih => exact absurd (h '_' (by simp)) (by decide)
  | case4 c rest hone hunder ih =>
    rw [digitValue?_of_isDigit (h c List.mem_cons_self),
      ih (fun hrest => hone hrest) fun d hd => h d (List.mem_cons_of_mem _ hd)]
    rfl

/-- The digits of a natural number come to it. -/
theorem ofDigits_natChars (n : Nat) : ofDigits ((natChars n).map valueOfDigit) = n := by
  rw [ofDigits, List.foldl_map]
  exact Nat.ofDigitChars_ten_toDigits

/-! ## Integers -/

/-- The parts of a written integer: whether it is negative, and its digits. -/
theorem parts?_chars (n : Int) :
    parts? (chars n) = some (decide (n < 0), (natChars n.natAbs).map valueOfDigit) := by
  have hdigits : digits? (natChars n.natAbs) = some ((natChars n.natAbs).map valueOfDigit) :=
    digits?_eq_map (natChars_ne_nil _) fun _ => isDigit_of_mem_natChars
  rw [parts?, withoutMargins_chars, chars]
  by_cases hn : n < 0
  · rw [if_pos hn, decide_eq_true hn]
    simp only [hdigits, Option.map_some]
  · rw [if_neg hn, decide_eq_false hn]
    have hsign : ∀ c ∈ natChars n.natAbs, c ≠ '-' ∧ c ≠ '+' := by
      rintro c hc
      have := toNat_of_isDigit (isDigit_of_mem_natChars hc)
      constructor <;> rintro rfl <;> simp at this
    split
    next rest hrest => exact absurd rfl (hsign '-' (hrest ▸ List.mem_cons_self)).1
    next rest hrest => exact absurd rfl (hsign '+' (hrest ▸ List.mem_cons_self)).2
    next => rw [hdigits]; rfl

/-- The parts of an integer come to it. -/
theorem ofParts_chars (n : Int) :
    ofParts (decide (n < 0), (natChars n.natAbs).map valueOfDigit) = n := by
  simp only [ofParts, ofDigits_natChars, decide_eq_true_eq]
  split <;> omega

end PhpAudit.Number.Integer
