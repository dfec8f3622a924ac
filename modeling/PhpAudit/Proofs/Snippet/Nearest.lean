import Mathlib.Data.Int.LeastGreatest
import Mathlib.Order.Bounds.Basic
import PhpAudit.Proofs.Snippet.Lines
import PhpAudit.Proofs.Snippet.Signature

/-!
# The nearest signature

A signature encloses a target when it stands close above it and no block is closed between the two.
Looking upwards from the target finds the nearest such line (`signatureLine?_eq_some_iff`), although
the search stops at the first line that closes a block or is a signature, whichever it encloses. The
window around a target starts where it would without signatures unless this line makes it start
higher (`window_starts_at_signature`).
-/

namespace PhpAudit.Snippet

open Text

/-! ## Looking upwards -/

/-- A line of some numbered lines is a signature, and no line with a greater number closes a
block. -/
def IsOpen (lines : List (Int × List Char)) (n : Int) : Prop :=
  ∃ line, (n, line) ∈ lines ∧ isSignature (strip line) = true ∧
    ∀ k other, (k, other) ∈ lines → n < k → isCloser (strip other) = false

/-- A line above others that is neither a signature nor closes a block makes no difference. -/
theorem isOpen_cons_iff {number n : Int} {line : List Char} {rest : List (Int × List Char)}
    (hsignature : isSignature (strip line) = false) (hcloser : isCloser (strip line) = false) :
    IsOpen ((number, line) :: rest) n ↔ IsOpen rest n := by
  constructor
  · rintro ⟨found, hmem, hfound, hclosers⟩
    refine ⟨found, ?_, hfound, fun k other hother => hclosers k other (List.mem_cons_of_mem _ hother)⟩
    rcases List.mem_cons.mp hmem with heq | hmem
    · cases heq
      rw [hsignature] at hfound
      cases hfound
    · exact hmem
  · rintro ⟨found, hmem, hfound, hclosers⟩
    refine ⟨found, List.mem_cons_of_mem _ hmem, hfound, fun k other hother hk => ?_⟩
    rcases List.mem_cons.mp hother with heq | hother
    · cases heq
      exact hcloser
    · exact hclosers k other hother hk

/-- Among lines that are numbered downwards, the search finds the greatest number that is open. -/
theorem firstSignature?_eq_some_iff {lines : List (Int × List Char)} {n : Int}
    (hdown : lines.Pairwise fun a b => b.1 < a.1) :
    firstSignature? lines = some n ↔ IsGreatest {n | IsOpen lines n} n := by
  -- on the lines from the target upwards
  induction lines with
  | nil =>
    constructor
    · intro h
      cases h
    · rintro ⟨⟨_, hmem, -⟩, -⟩
      cases hmem
  | cons head rest ih =>
    obtain ⟨number, line⟩ := head
    obtain ⟨hbelow, hrest⟩ := List.pairwise_cons.mp hdown
    rw [firstSignature?]
    split
    next hsignature =>
      -- every other line stands above this one, so nothing below it can close its block
      have hgreatest : IsGreatest {n | IsOpen ((number, line) :: rest) n} number := by
        constructor
        · refine ⟨line, List.mem_cons_self, hsignature, fun k other hother hk => ?_⟩
          rcases List.mem_cons.mp hother with heq | hother
          · cases heq
            exact absurd hk (lt_irrefl _)
          · exact absurd hk (not_lt_of_gt (hbelow _ hother))
        · rintro m ⟨found, hmem, -⟩
          rcases List.mem_cons.mp hmem with heq | hmem
          · cases heq
            exact le_rfl
          · exact (hbelow _ hmem).le
      rw [Option.some.injEq]
      constructor
      · rintro rfl
        exact hgreatest
      · exact hgreatest.unique
    next hsignature =>
      have hsignature : isSignature (strip line) = false := by simpa using hsignature
      split
      next hcloser =>
        -- a block is closed below every other line, and this one is no signature
        constructor
        · intro h
          cases h
        · rintro ⟨⟨found, hmem, hfound, hclosers⟩, -⟩
          rcases List.mem_cons.mp hmem with heq | hmem
          · cases heq
            rw [hsignature] at hfound
            cases hfound
          · have := hclosers number line List.mem_cons_self (hbelow _ hmem)
            rw [hcloser] at this
            cases this
      next hcloser =>
        have hcloser : isCloser (strip line) = false := by simpa using hcloser
        rw [ih hrest]
        simp only [isOpen_cons_iff hsignature hcloser]

/-! ## The lines of a file -/

/-- A line stands in a file under a number, counted from one. -/
def IsLine (lines : List (List Char)) (n : Int) (line : List Char) : Prop :=
  ∃ i : Nat, lines[i]? = some line ∧ n = 1 + i

/-- A line encloses a target: it is at most fifteen lines above the target, it matches a pattern of
signatures, and no line between the two closes a block. -/
structure Encloses (lines : List (List Char)) (target n : Int) : Prop where
  near : max (target - 15) 1 ≤ n ∧ n ≤ min (target - 1) lines.length
  signature : ∃ line, IsLine lines n line ∧
    ∃ pattern ∈ signaturePatterns, SignaturePart.Matches pattern (strip line)
  unclosed : ∀ k line, n < k → k < target → IsLine lines k line →
    strip line ≠ ['\x7d'] ∧ strip line ≠ ['\x7d', ';']

theorem isCloser_eq_false_iff {line : List Char} :
    isCloser line = false ↔ line ≠ ['\x7d'] ∧ line ≠ ['\x7d', ';'] := by
  rw [isCloser, Bool.or_eq_false_iff, beq_eq_false_iff_ne, beq_eq_false_iff_ne]

/-- The lines that are looked through, from the target upwards. -/
def linesAbove (lines : List (List Char)) (target : Int) : List (Int × List Char) :=
  ((numberedFrom 1 lines).filter fun line =>
    max (target - signatureDepth) 1 ≤ line.1 && line.1 ≤ target - 1).reverse

theorem mem_linesAbove {lines : List (List Char)} {target n : Int} {line : List Char} :
    (n, line) ∈ linesAbove lines target ↔
      (max (target - 15) 1 ≤ n ∧ n ≤ target - 1) ∧ IsLine lines n line := by
  rw [linesAbove, List.mem_reverse, List.mem_filter, mem_numberedFrom, Bool.and_eq_true,
    decide_eq_true_iff, decide_eq_true_iff, signatureDepth, and_comm, IsLine]

theorem pairwise_linesAbove (lines : List (List Char)) (target : Int) :
    (linesAbove lines target).Pairwise fun a b => b.1 < a.1 := by
  rw [linesAbove, List.pairwise_reverse, filter_numberedFrom]
  apply List.pairwise_map.mp
  rw [map_fst_numberedFrom, Int.range, List.pairwise_map]
  apply List.pairwise_lt_range.imp
  intro a b hab
  omega

/-- What is open among the lines above a target encloses it. -/
theorem isOpen_linesAbove_iff {lines : List (List Char)} {target n : Int} :
    IsOpen (linesAbove lines target) n ↔ Encloses lines target n := by
  constructor
  · rintro ⟨line, hmem, hsignature, hclosers⟩
    obtain ⟨hnear, hline⟩ := mem_linesAbove.mp hmem
    obtain ⟨i, hi, hn⟩ := id hline
    have hlast := (List.getElem?_eq_some_iff.mp hi).1
    refine ⟨by omega, ⟨line, hline, isSignature_iff.mp hsignature⟩, fun k other hk hk' hother => ?_⟩
    exact isCloser_eq_false_iff.mp
      (hclosers k other (mem_linesAbove.mpr ⟨by omega, hother⟩) hk)
  · rintro ⟨hnear, ⟨line, hline, hmatches⟩, hunclosed⟩
    refine ⟨line, mem_linesAbove.mpr ⟨by omega, hline⟩, isSignature_iff.mpr hmatches,
      fun k other hother hk => ?_⟩
    obtain ⟨hbelow, hother⟩ := mem_linesAbove.mp hother
    exact isCloser_eq_false_iff.mpr (hunclosed k other hk (by omega) hother)

/-- The nearest signature is the last line that encloses the target. -/
theorem signatureLine?_eq_some_iff {lines : List (List Char)} {target n : Int} :
    signatureLine? lines target = some n ↔ IsGreatest {n | Encloses lines target n} n := by
  simp only [← isOpen_linesAbove_iff]
  exact firstSignature?_eq_some_iff (pairwise_linesAbove lines target)

/-- The search fails only if no line encloses the target. -/
theorem signatureLine?_eq_none_iff {lines : List (List Char)} {target : Int} :
    signatureLine? lines target = none ↔ ∀ n, ¬Encloses lines target n := by
  rw [Option.eq_none_iff_forall_ne_some]
  constructor
  · intro hnone n hn
    have hbound : ∃ bound, ∀ m, Encloses lines target m → m ≤ bound :=
      ⟨target, fun m hm => by have := hm.near; omega⟩
    obtain ⟨greatest, hmem, hupper⟩ := Int.exists_greatest_of_bdd hbound ⟨n, hn⟩
    exact hnone greatest (signatureLine?_eq_some_iff.mpr ⟨hmem, fun m hm => hupper m hm⟩)
  · intro hall n hn
    exact hall n (signatureLine?_eq_some_iff.mp hn).1

/-- **Windows start at the nearest signature if that lies above them.** The search upwards finds the
last line that encloses the target, if there is one. The window starts there when this line lies
above the slid window and leaves three lines below the target, or as many as the radius if that is
less; in every other case it starts where the slid window does. -/
theorem window_starts_at_signature (lines : List (List Char)) (target radius : Int) :
    (∀ n, signatureLine? lines target = some n ↔ IsGreatest {n | Encloses lines target n} n) ∧
      (signatureLine? lines target = none ↔ ∀ n, ¬Encloses lines target n) ∧
      (∀ n, IsGreatest {n | Encloses lines target n} n →
        n < slidStart lines.length target radius →
        min 3 radius ≤ 2 * radius - (target - n) → (window lines target radius).1 = n) ∧
      ((∀ n, IsGreatest {n | Encloses lines target n} n →
        ¬(n < slidStart lines.length target radius ∧
          min 3 radius ≤ 2 * radius - (target - n))) →
        (window lines target radius).1 = slidStart lines.length target radius) := by
  refine ⟨fun n => signatureLine?_eq_some_iff, signatureLine?_eq_none_iff, ?_, ?_⟩
  · intro n hn habove hbelow
    rw [window_eq, signatureLine?_eq_some_iff.mpr hn]
    exact if_pos ⟨habove, hbelow⟩
  · intro hnever
    rw [window_eq]
    cases hsearch : signatureLine? lines target with
    | none => rfl
    | some n => exact if_neg (hnever n (signatureLine?_eq_some_iff.mp hsearch))

/-- A function of ten lines. -/
def tenLines : List (List Char) := "function Run()".toList :: List.replicate 9 "step();".toList

/-- The sixth line is too far from the signature for the slid window, and near enough for the window
to start there. -/
theorem window_starts_at_signature_tenLines :
    IsGreatest {n | Encloses tenLines 6 n} 1 ∧ (window tenLines 6 4).1 = 1 := by
  obtain ⟨hfound, -, hstart, -⟩ := window_starts_at_signature tenLines 6 4
  have hgreatest := (hfound 1).mp (by decide)
  exact ⟨hgreatest, hstart 1 hgreatest (by decide) (by decide)⟩

end PhpAudit.Snippet
