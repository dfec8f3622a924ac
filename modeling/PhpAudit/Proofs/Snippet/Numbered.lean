import Mathlib.Data.Int.Range
import Mathlib.Data.List.Range
import PhpAudit.Snippet.Window

/-!
# Numbered lines

Lines that are numbered from a first number on, and what is left of them when only an interval of
numbers is kept: the lines of a slice, numbered from where the slice starts. Intervals of integers
are `Int.range`, whose upper end is excluded.
-/

namespace PhpAudit.Snippet

/-! ## Intervals of integers -/

/-- An interval that is not empty starts with its lower end. -/
theorem range_eq_cons {first stop : Int} (h : first < stop) :
    Int.range first stop = first :: Int.range (first + 1) stop := by
  have hlength : (stop - first).toNat = (stop - (first + 1)).toNat + 1 := by omega
  simp only [Int.range, hlength, List.range_succ_eq_map, List.map_cons, List.map_map]
  refine List.cons_eq_cons.mpr ⟨by omega, ?_⟩
  apply List.map_congr_left
  intro i _
  simp only [Function.comp_apply]
  omega

/-- The number of integers in an interval. -/
theorem length_range (first stop : Int) :
    (Int.range first stop).length = (stop - first).toNat := by
  simp only [Int.range, List.length_map, List.length_range]

/-- Each integer of an interval is followed by its successor. -/
theorem isChain_range (first stop : Int) :
    (Int.range first stop).IsChain fun a b => b = a + 1 := by
  simp only [Int.range, List.isChain_map]
  apply (List.isChain_range _ _).mpr
  intro i _
  push_cast
  omega

/-- The integers of an interval ascend. -/
theorem pairwise_range (first stop : Int) : (Int.range first stop).Pairwise (· < ·) := by
  rw [Int.range, List.pairwise_map]
  refine List.pairwise_lt_range.imp fun hlt => ?_
  omega

/-- An interval cut in two. -/
theorem range_append {first middle stop : Int} (h₁ : first ≤ middle) (h₂ : middle ≤ stop) :
    Int.range first middle ++ Int.range middle stop = Int.range first stop := by
  have hlength : (stop - first).toNat = (middle - first).toNat + (stop - middle).toNat := by omega
  simp only [Int.range, hlength, List.range_add, List.map_append, List.map_map]
  congr 1
  apply List.map_congr_left
  intro i _
  simp only [Function.comp_apply]
  omega

/-- How many integers of an interval lie above one of them. -/
theorem countP_lt_range {first stop n : Int} (h₁ : first ≤ n) (h₂ : n < stop) :
    (Int.range first stop).countP (fun k => n < k) = (stop - (n + 1)).toNat := by
  have below : (Int.range first (n + 1)).countP (fun k => n < k) = 0 := by
    apply List.countP_eq_zero.mpr
    intro k hk
    have := (Int.mem_range_iff.mp hk).2
    simp only [decide_eq_true_eq]
    omega
  have above : (Int.range (n + 1) stop).countP (fun k => n < k) =
      (Int.range (n + 1) stop).length := by
    apply List.countP_eq_length.mpr
    intro k hk
    have := (Int.mem_range_iff.mp hk).1
    simp only [decide_eq_true_eq]
    omega
  rw [← range_append (Int.le_add_one h₁) h₂, List.countP_append, below, above, length_range,
    Nat.zero_add]

/-! ## Numbered lines -/

variable {α : Type}

/-- The lines that have a number: the number is the place, counted from the first one. -/
theorem mem_numberedFrom {first n : Int} {line : α} {lines : List α} :
    (n, line) ∈ numberedFrom first lines ↔ ∃ i : Nat, lines[i]? = some line ∧ n = first + i := by
  induction lines generalizing first with
  | nil => simp only [numberedFrom, List.not_mem_nil, List.getElem?_nil, reduceCtorEq, false_and,
      exists_false]
  | cons head rest ih =>
    rw [numberedFrom, List.mem_cons, Prod.mk.injEq, ih]
    constructor
    · rintro (⟨rfl, rfl⟩ | ⟨i, hline, rfl⟩)
      · exact ⟨0, rfl, by omega⟩
      · exact ⟨i + 1, by rw [List.getElem?_cons_succ, hline], by omega⟩
    · rintro ⟨i, hline, rfl⟩
      cases i with
      | zero =>
        left
        rw [List.getElem?_cons_zero, Option.some.injEq] at hline
        exact ⟨by omega, hline.symm⟩
      | succ i =>
        right
        rw [List.getElem?_cons_succ] at hline
        exact ⟨i, hline, by omega⟩

/-- The numbers are those from the first on, one for each line. -/
theorem map_fst_numberedFrom (first : Int) (lines : List α) :
    (numberedFrom first lines).map Prod.fst = Int.range first (first + lines.length) := by
  induction lines generalizing first with
  | nil =>
    have hlength : (first + ([] : List α).length - first).toNat = 0 := by
      rw [List.length_nil]
      omega
    rw [numberedFrom, List.map_nil, Int.range, hlength, List.range_zero, List.map_nil]
  | cons line rest ih =>
    have hlt : first < first + (rest.length + 1 : Nat) := by omega
    have hstop : first + 1 + rest.length = first + (rest.length + 1 : Nat) := by omega
    rw [numberedFrom, List.map_cons, ih, List.length_cons, range_eq_cons hlt, hstop]

/-- The lines are those that were numbered. -/
theorem map_snd_numberedFrom (first : Int) (lines : List α) :
    (numberedFrom first lines).map Prod.snd = lines := by
  induction lines generalizing first with
  | nil => rfl
  | cons line rest ih => rw [numberedFrom, List.map_cons, ih]

/-- Keeping the numbers of an interval keeps a slice of the lines. -/
theorem filter_numberedFrom (first low high : Int) (lines : List α) :
    ((numberedFrom first lines).filter fun line => low ≤ line.1 && line.1 ≤ high) =
      numberedFrom (max low first)
        ((lines.take (high + 1 - first).toNat).drop (low - first).toNat) := by
  induction lines generalizing first with
  | nil => simp only [numberedFrom, List.filter_nil, List.take_nil, List.drop_nil]
  | cons line rest ih =>
    rw [numberedFrom, List.filter_cons, ih]
    by_cases hhigh : first ≤ high
    · have htake : (high + 1 - first).toNat = (high + 1 - (first + 1)).toNat + 1 := by omega
      rw [htake, List.take_succ_cons]
      by_cases hlow : low ≤ first
      · have hdrop : (low - first).toNat = 0 := by omega
        have hdrop' : (low - (first + 1)).toNat = 0 := by omega
        rw [if_pos (by simp only [hlow, hhigh, decide_true, Bool.and_self]), hdrop, hdrop',
          List.drop_zero, List.drop_zero, max_eq_right hlow, max_eq_right (by omega), numberedFrom]
      · have hdrop : (low - first).toNat = (low - (first + 1)).toNat + 1 := by omega
        rw [if_neg (by simp only [hlow, decide_false, Bool.false_and, Bool.false_eq_true,
            not_false_eq_true]), hdrop, List.drop_succ_cons, max_eq_left (by omega),
          max_eq_left (by omega)]
    · have htake : (high + 1 - first).toNat = 0 := by omega
      have htake' : (high + 1 - (first + 1)).toNat = 0 := by omega
      rw [if_neg (by simp only [hhigh, decide_false, Bool.and_false, Bool.false_eq_true,
          not_false_eq_true]), htake, htake', List.take_zero, List.take_zero, List.drop_nil,
        List.drop_nil, numberedFrom, numberedFrom]

/-! ## Lines looked up by number -/

/-- The numbers from a first one up to a last one are an interval. -/
theorem numbers_eq_range (first last : Int) : numbers first last = Int.range first (last + 1) := rfl

/-- The line under a number is the one in the number's place, counted from one. -/
theorem lineUnder?_eq_some_iff {lines : List (List Char)} {number : Int} {line : List Char} :
    lineUnder? lines number = some line ↔ ∃ i : Nat, lines[i]? = some line ∧ number = 1 + i := by
  rw [lineUnder?]
  split
  next hlow =>
    refine iff_of_false nofun ?_
    rintro ⟨i, -, rfl⟩
    omega
  next hpos =>
    constructor
    · exact fun hline => ⟨_, hline, by omega⟩
    · rintro ⟨i, hline, rfl⟩
      rwa [show (1 + (i : Int) - 1).toNat = i by omega]

/-- Two ways to the same lines: every number of an interval is looked up, or all lines are numbered
and those with a number of the interval are kept. -/
theorem filterMap_lineUnder? (lines : List (List Char)) (first last : Int) :
    ((numbers first last).filterMap fun n => (lineUnder? lines n).map fun line => (n, line)) =
      (numberedFrom 1 lines).filter fun line => first ≤ line.1 && line.1 ≤ last := by
  -- Both are sorted by their numbers, so it is enough that they have the same members.
  have hlookup : ((numbers first last).filterMap fun n =>
      (lineUnder? lines n).map fun line => (n, line)).Pairwise fun a b => a.1 < b.1 := by
    refine List.pairwise_filterMap.mpr ((pairwise_range first (last + 1)).imp ?_)
    intro n m hlt a ha b hb
    obtain ⟨_, -, rfl⟩ := Option.map_eq_some_iff.mp ha
    obtain ⟨_, -, rfl⟩ := Option.map_eq_some_iff.mp hb
    exact hlt
  have hkept : ((numberedFrom 1 lines).filter fun line =>
      first ≤ line.1 && line.1 ≤ last).Pairwise fun a b => a.1 < b.1 := by
    refine List.Pairwise.filter _ (List.pairwise_map.mp ?_)
    rw [map_fst_numberedFrom]
    exact pairwise_range _ _
  have hnodup {numbered : List (Int × List Char)}
      (h : numbered.Pairwise fun a b => a.1 < b.1) : numbered.Nodup :=
    h.imp fun hlt heq => hlt.ne (congrArg Prod.fst heq)
  refine List.Perm.eq_of_pairwise (fun a b _ _ hlt hgt => absurd hlt (lt_asymm hgt)) hlookup hkept
    ((List.perm_ext_iff_of_nodup (hnodup hlookup) (hnodup hkept)).mpr ?_)
  rintro ⟨n, line⟩
  simp only [List.mem_filterMap, Option.map_eq_some_iff, Prod.mk.injEq, List.mem_filter,
    mem_numberedFrom, lineUnder?_eq_some_iff, numbers_eq_range, Int.mem_range_iff,
    Bool.and_eq_true, decide_eq_true_eq]
  constructor
  · rintro ⟨_, hrange, _, hline, rfl, rfl⟩
    exact ⟨hline, by omega⟩
  · rintro ⟨hline, hrange⟩
    exact ⟨n, by omega, line, hline, rfl, rfl⟩

/-- A loop that finds something at every step finds what the steps find. -/
theorem mapM_eq_some_filterMap {β : Type} {step : α → Option β} {xs : List α}
    (h : ∀ x ∈ xs, (step x).isSome) : xs.mapM step = some (xs.filterMap step) := by
  induction xs with
  | nil => rfl
  | cons x xs ih =>
    obtain ⟨hx, hxs⟩ := List.forall_mem_cons.mp h
    obtain ⟨y, hy⟩ := Option.isSome_iff_exists.mp hx
    rw [List.mapM_cons, hy, ih hxs, List.filterMap_cons_some hy]
    rfl

end PhpAudit.Snippet
