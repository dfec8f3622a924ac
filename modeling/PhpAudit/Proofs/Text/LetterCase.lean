import PhpAudit.Text.Lowercase

/-!
# Letter case

Two texts that differ in nothing but the case of their ASCII letters have the same small form
(`lower_eq_of_sameLetters`). That takes more than each letter having one: a sigma takes its form
from the letters around it, so these must be told from other characters whatever their case is.
-/

namespace PhpAudit.Text

/-- Texts that differ at most in the case of their ASCII letters. -/
def SameLetters (first second : String) : Prop :=
  first.toList.map Char.toLower = second.toList.map Char.toLower

instance (first second : String) : Decidable (SameLetters first second) :=
  inferInstanceAs (Decidable (first.toList.map Char.toLower = second.toList.map Char.toLower))

/-! ## Characters -/

/-- The letters of ASCII. -/
def letterRanges : Ranges := [(0x41, 0x5A), (0x61, 0x7A)]

/-- A capital and its small letter are both letters. -/
theorem isLetter_of_isCapital : ∀ code < 0x5B, 0x41 ≤ code →
    letterRanges.contains (Char.ofNat code).toNat = true ∧
      letterRanges.contains (Char.ofNat code).toLower.toNat = true := by
  decide

/-- What does not tell the capitals of ASCII from their small letters does not see the case of ASCII
letters at all. -/
theorem apply_toLower {α : Type} (f : Char → α)
    (h : ∀ code < 0x5B, 0x41 ≤ code → f (Char.ofNat code).toLower = f (Char.ofNat code))
    (c : Char) : f c.toLower = f c := by
  by_cases hc : c.val ≥ 'A'.val ∧ c.val ≤ 'Z'.val
  · have hlow : 0x41 ≤ c.toNat := hc.1
    have hhigh : c.toNat ≤ 0x5A := hc.2
    have hcode := h c.toNat (by omega) hlow
    rwa [Char.ofNat_toNat] at hcode
  · have hsame : c.toLower = c := dif_neg hc
    rw [hsame]

/-- A code outside the letters is reached by lowering only from itself. -/
theorem toNat_toLower_eq_iff {code : Nat} (hcode : letterRanges.contains code = false) (c : Char) :
    c.toLower.toNat = code ↔ c.toNat = code := by
  refine iff_of_eq (apply_toLower (fun c => c.toNat = code) (fun n hn hle => ?_) c)
  obtain ⟨hcapital, hsmall⟩ := isLetter_of_isCapital n hn hle
  have hne {m : Nat} (h : letterRanges.contains m = true) : ¬ m = code := by
    rintro rfl
    rw [hcode] at h
    cases h
  exact propext (iff_of_false (hne hsmall) (hne hcapital))

/-- A character may be lowered before its case is mapped. -/
theorem lowerChar_toLower (c : Char) : lowerChar c.toLower = lowerChar c :=
  apply_toLower lowerChar (by decide) c

/-- Lowering keeps whether a character is cased. -/
theorem contains_casedRanges_toLower (c : Char) :
    casedRanges.contains c.toLower.toNat = casedRanges.contains c.toNat :=
  apply_toLower (fun c => casedRanges.contains c.toNat) (by decide) c

/-- Lowering keeps whether a character is ignored in casing. -/
theorem contains_caseIgnorableRanges_toLower (c : Char) :
    caseIgnorableRanges.contains c.toLower.toNat = caseIgnorableRanges.contains c.toNat := by
  have hnot {code : Nat} (h : letterRanges.contains code = true) :
      caseIgnorableRanges.contains code = false :=
    Ranges.not_contains_of_apart (by decide +kernel) h
  refine apply_toLower (fun c => caseIgnorableRanges.contains c.toNat) (fun code hlt hle => ?_) c
  obtain ⟨hcapital, hsmall⟩ := isLetter_of_isCapital code hlt hle
  exact (hnot hsmall).trans (hnot hcapital).symm

/-! ## Texts -/

/-- The search for a letter that has a case does not see the case of ASCII letters. -/
theorem casedAhead_map_toLower (text : List Char) :
    casedAhead (text.map Char.toLower) = casedAhead text := by
  have hskip : (fun c => caseIgnorableRanges.contains c.toNat) ∘ Char.toLower =
      fun c => caseIgnorableRanges.contains c.toNat :=
    funext contains_caseIgnorableRanges_toLower
  rw [casedAhead, casedAhead, List.dropWhile_map, hskip]
  cases text.dropWhile fun c => caseIgnorableRanges.contains c.toNat with
  | nil => rfl
  | cons c rest => exact contains_casedRanges_toLower c

/-- A text may be lowered letter by letter before its case is mapped, whatever stands before it. -/
theorem lowerFrom_map_toLower (before text : List Char) :
    lowerFrom (before.map Char.toLower) (text.map Char.toLower) = lowerFrom before text := by
  have hsigma (c : Char) : c.toLower.toNat = 0x3A3 ↔ c.toNat = 0x3A3 :=
    toNat_toLower_eq_iff (by decide) c
  have hdotted (c : Char) : c.toLower.toNat = 0x130 ↔ c.toNat = 0x130 :=
    toNat_toLower_eq_iff (by decide) c
  induction text generalizing before with
  | nil => rfl
  | cons c rest ih =>
    have hrest := ih (c :: before)
    rw [List.map_cons] at hrest
    simp only [List.map_cons, lowerFrom, hrest, hsigma, hdotted, casedAhead_map_toLower,
      lowerChar_toLower]

/-- **The small form of a text does not depend on the case of its ASCII letters.** -/
theorem lower_eq_of_sameLetters {first second : String} (h : SameLetters first second) :
    lower first = lower second := by
  rw [lower, lower, ← lowerFrom_map_toLower [] first.toList,
    ← lowerFrom_map_toLower [] second.toList, h]

end PhpAudit.Text
