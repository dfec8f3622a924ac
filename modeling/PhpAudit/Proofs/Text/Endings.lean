import Mathlib.Data.List.Infix
import PhpAudit.Proofs.Text.Lines
import PhpAudit.Proofs.Text.Segments
import PhpAudit.Text.Blank

/-!
# Line endings

Texts are cut into lines in two ways: into the pieces between line feeds, as they stand, and into
lines that keep what ends them, after carriage returns have been turned into line feeds. The two
number the same lines alike in an ordinary text, one that has no line ends but line feeds, alone or
with a carriage return in front (`segments_eq_lines`). A piece then differs from the line under its
number by a carriage return at its end, and there is one more piece when the last line is ended.

A carriage return is blank. Where a piece is cut off and stripped the difference is therefore gone,
whether the cut takes the carriage return or leaves it (`stripEnd_take_withoutLast`).
-/

namespace PhpAudit.Text

/-! ## Last characters -/

/-- A text without its last character, if that is the given one. -/
def withoutLast (c : Char) (text : List Char) : List Char :=
  if text.getLast? = some c then text.dropLast else text

theorem withoutLast_concat (c : Char) (front : List Char) : withoutLast c (front ++ [c]) = front := by
  rw [withoutLast, if_pos List.getLast?_concat, List.dropLast_concat]

/-- What stands in front of the last character stays. -/
theorem withoutLast_cons_of_ne {c d : Char} (h : d ≠ c) (text : List Char) :
    withoutLast c (d :: text) = d :: withoutLast c text := by
  cases text with
  | nil => simp [withoutLast, h]
  | cons e text =>
    rw [withoutLast, withoutLast, List.getLast?_cons_cons]
    split
    · rfl
    · rfl

/-- What a character in front of some pieces adds to the first one stays. -/
theorem map_withoutLast_modifyHead {c d : Char} (h : d ≠ c) (pieces : List (List Char)) :
    (pieces.modifyHead (d :: ·)).map (withoutLast c) =
      (pieces.map (withoutLast c)).modifyHead (d :: ·) := by
  cases pieces with
  | nil => rfl
  | cons piece rest =>
    rw [List.modifyHead_cons, List.map_cons, List.map_cons, List.modifyHead_cons,
      withoutLast_cons_of_ne h]

/-- A blank at the end of a text makes no difference once the text is cut off and stripped. -/
theorem stripEnd_take_withoutLast {c : Char} (hc : isBlank c = true) (limit : Nat)
    (text : List Char) :
    stripEnd ((withoutLast c text).take limit) = stripEnd (text.take limit) := by
  by_cases hlast : text.getLast? = some c
  · obtain ⟨front, rfl⟩ := List.getLast?_eq_some_iff.mp hlast
    rw [withoutLast_concat]
    rcases Nat.lt_or_ge front.length limit with hlong | hshort
    · -- the cut leaves the last character, which is stripped
      have hwhole : (front ++ [c]).length ≤ limit := by
        rw [List.length_append, List.length_singleton]
        omega
      rw [List.take_of_length_le (Nat.le_of_lt hlong), List.take_of_length_le hwhole]
      simp only [stripEnd, List.reverse_append, List.reverse_singleton, List.singleton_append,
        List.dropWhile_cons_of_pos hc]
    · rw [List.take_append_of_le_length hshort]
  · rw [withoutLast, if_neg hlast]

/-! ## Ordinary texts -/

/-- The line ends of Unicode other than the line feed and the carriage return. -/
def otherLineEnds : List Nat := [0x0B, 0x0C, 0x1C, 0x1D, 0x1E, 0x85, 0x2028, 0x2029]

/-- Every carriage return of a text is directly followed by a line feed. -/
def IsPaired (text : List Char) : Prop :=
  ∀ rest, '\r' :: rest <:+ text → rest.head? = some '\n'

/-- A text of whole lines: it is empty or ends with a line feed. -/
def IsWhole (text : List Char) : Prop := text = [] ∨ text.getLast? = some '\n'

instance : DecidablePred IsPaired := fun text =>
  decidable_of_iff
    (∀ tail ∈ text.tails, tail.head? = some '\r' → tail.tail.head? = some '\n') <| by
    simp only [List.mem_tails, IsPaired]
    constructor
    · exact fun h rest hrest => h _ hrest rfl
    · intro h tail htail hhead
      obtain ⟨rest, rfl⟩ := List.head?_eq_some_iff.mp hhead
      exact h rest htail

instance : DecidablePred IsWhole := fun text =>
  inferInstanceAs (Decidable (text = [] ∨ text.getLast? = some '\n'))

theorem eq_of_isLineEnd {c : Char} (h : isLineEnd c = true) (hother : c.toNat ∉ otherLineEnds) :
    c = '\n' ∨ c = '\r' := by
  simp only [otherLineEnds, List.mem_cons, List.not_mem_nil, or_false] at hother
  simp only [isLineEnd, Bool.or_eq_true, Bool.and_eq_true, decide_eq_true_eq, beq_iff_eq] at h
  have hcode : c.toNat = '\n'.toNat ∨ c.toNat = '\r'.toNat := by
    have hn : '\n'.toNat = 10 := rfl
    have hr : '\r'.toNat = 13 := rfl
    omega
  exact hcode.imp Char.toNat_inj.mp Char.toNat_inj.mp

theorem IsPaired.of_cons {c : Char} {text : List Char} (h : IsPaired (c :: text)) :
    IsPaired text :=
  fun rest hrest => h rest (hrest.trans (List.suffix_cons c text))

/-- A character in front of a text does not change how the text ends. -/
theorem isWhole_cons {c : Char} {text : List Char} (h : text ≠ []) :
    IsWhole (c :: text) ↔ IsWhole text := by
  obtain ⟨d, rest, rfl⟩ := List.exists_cons_of_ne_nil h
  simp only [IsWhole, List.getLast?_cons_cons, reduceCtorEq, false_or]

theorem isWhole_lineFeed_cons (text : List Char) : IsWhole ('\n' :: text) ↔ IsWhole text := by
  cases text with
  | nil => simp [IsWhole]
  | cons c rest => exact isWhole_cons (List.cons_ne_nil c rest)

/-! ## Carriage returns in front of line feeds -/

/-- Two parts keep their line endings apart unless the second one starts with a line feed. -/
theorem withLineFeeds_append {back : List Char} (hback : back.head? ≠ some '\n')
    (front : List Char) :
    withLineFeeds (front ++ back) = withLineFeeds front ++ withLineFeeds back := by
  fun_induction withLineFeeds front with
  | case1 => rfl
  | case2 rest ih => rw [List.cons_append, List.cons_append, withLineFeeds, ih, List.cons_append]
  | case3 rest hlone ih =>
    have hnone : (rest ++ back).head? ≠ some '\n' := by
      cases rest with
      | nil => exact hback
      | cons d rest =>
        intro h
        rw [List.cons_append, List.head?_cons, Option.some_inj] at h
        exact hlone rest (by rw [h])
    rw [List.cons_append, withLineFeeds_return_cons hnone, ih, List.cons_append]
  | case4 c rest _ hreturn ih =>
    rw [List.cons_append, withLineFeeds_cons_of_ne hreturn, ih, List.cons_append]

/-- Where no line feed comes out, none went in and no carriage return either. -/
theorem eq_of_withLineFeeds {text : List Char} (h : '\n' ∉ withLineFeeds text) :
    withLineFeeds text = text := by
  fun_induction withLineFeeds text with
  | case1 => rfl
  | case2 rest _ => exact absurd List.mem_cons_self h
  | case3 rest _ _ => exact absurd List.mem_cons_self h
  | case4 c rest _ _ ih => rw [ih fun hmem => h (List.mem_cons_of_mem c hmem)]

/-- What has no carriage returns goes through as it is. -/
theorem withLineFeeds_append_of_notMem {front : List Char} (h : '\r' ∉ front)
    (back : List Char) : withLineFeeds (front ++ back) = front ++ withLineFeeds back := by
  induction front with
  | nil => rfl
  | cons c front ih =>
    rw [List.mem_cons, not_or] at h
    rw [List.cons_append, withLineFeeds_cons_of_ne (Ne.symm h.1), ih h.2, List.cons_append]

/-- What comes out in two parts went in in two parts. -/
theorem exists_append_of_withLineFeeds {text front back : List Char}
    (h : withLineFeeds text = front ++ back) :
    ∃ start rest, text = start ++ rest ∧ withLineFeeds start = front ∧
      withLineFeeds rest = back := by
  induction front generalizing text with
  | nil => exact ⟨[], text, rfl, rfl, h⟩
  | cons c front ih =>
    rw [List.cons_append] at h
    fun_cases withLineFeeds text with
    | case1 => cases h
    | case2 tail =>
      rw [withLineFeeds, List.cons.injEq] at h
      obtain ⟨start, rest, rfl, hstart, hrest⟩ := ih h.2
      exact ⟨'\r' :: '\n' :: start, rest, rfl, by rw [withLineFeeds, hstart, h.1], hrest⟩
    | case3 tail hlone =>
      rw [withLineFeeds.eq_3 tail hlone, List.cons.injEq] at h
      obtain ⟨start, rest, rfl, hstart, hrest⟩ := ih h.2
      refine ⟨'\r' :: start, rest, rfl, ?_, hrest⟩
      have hnone : start.head? ≠ some '\n' := by
        intro hhead
        obtain ⟨more, rfl⟩ := List.head?_eq_some_iff.mp hhead
        exact hlone _ rfl
      rw [withLineFeeds_return_cons hnone, hstart, h.1]
    | case4 d tail _ hreturn =>
      rw [withLineFeeds_cons_of_ne hreturn, List.cons.injEq] at h
      obtain ⟨start, rest, rfl, hstart, hrest⟩ := ih h.2
      exact ⟨d :: start, rest, rfl, by rw [withLineFeeds_cons_of_ne hreturn, hstart, h.1], hrest⟩

/-- Line feeds are blank, as carriage returns are. -/
theorem isBlank_of_mem_withLineFeeds {text : List Char} (h : ∀ c ∈ text, isBlank c = true) :
    ∀ c ∈ withLineFeeds text, isBlank c = true := by
  intro c hc
  rcases mem_withLineFeeds hc with rfl | ⟨hmem, -⟩
  · rfl
  · exact h c hmem

/-- What a carriage return stands in front of, if every one is paired. -/
theorem IsPaired.exists_eq_cons {text : List Char} (h : IsPaired ('\r' :: text)) :
    ∃ rest, text = '\n' :: rest :=
  List.head?_eq_some_iff.mp (h text List.suffix_rfl)

/-- Pairing up carriage returns does not change whether the last line is ended. -/
theorem isWhole_withLineFeeds {text : List Char} (h : IsPaired text) :
    IsWhole (withLineFeeds text) ↔ IsWhole text := by
  fun_induction withLineFeeds text with
  | case1 => exact Iff.rfl
  | case2 rest ih =>
    rw [isWhole_lineFeed_cons, ih h.of_cons.of_cons, isWhole_cons (List.cons_ne_nil _ _),
      isWhole_lineFeed_cons]
  | case3 rest hlone ih =>
    obtain ⟨tail, rfl⟩ := h.exists_eq_cons
    exact absurd rfl (hlone tail)
  | case4 c rest _ _ ih =>
    by_cases hrest : rest = []
    · rw [hrest]
      exact Iff.rfl
    · rw [isWhole_cons hrest, isWhole_cons fun hnil => hrest (withLineFeeds_eq_nil_iff.mp hnil),
        ih h.of_cons]

/-- The pieces lose the carriage returns at their ends. -/
theorem segments_withLineFeeds {text : List Char} (h : IsPaired text) :
    segments (withLineFeeds text) = (segments text).map (withoutLast '\r') := by
  fun_induction withLineFeeds text with
  | case1 => rfl
  | case2 rest ih =>
    rw [segments_lineFeed_cons, ih h.of_cons.of_cons, segments_cons_of_ne (by decide),
      segments_lineFeed_cons, List.modifyHead_cons, List.map_cons]
    rfl
  | case3 rest hlone ih =>
    obtain ⟨tail, rfl⟩ := h.exists_eq_cons
    exact absurd rfl (hlone tail)
  | case4 c rest _ hreturn ih =>
    by_cases hc : c = '\n'
    · rw [hc, segments_lineFeed_cons, segments_lineFeed_cons, ih h.of_cons, List.map_cons]
      rfl
    · rw [segments_cons_of_ne hc, segments_cons_of_ne hc, ih h.of_cons,
        map_withoutLast_modifyHead hreturn]

/-! ## Lines and pieces -/

/-- Where only line feeds end lines, the pieces are the lines without them, and an empty one if the
last line is ended. -/
theorem segments_eq_map_linesWithEnds {text : List Char}
    (h : ∀ c ∈ text, isLineEnd c = true → c = '\n') :
    segments text =
      (linesWithEnds text).map (withoutLast '\n') ++ if IsWhole text then [[]] else [] := by
  fun_induction linesWithEnds text with
  | case1 => rfl
  | case2 rest ih => exact absurd (h '\r' List.mem_cons_self rfl) (by decide)
  | case3 c rest _ hend ih =>
    have hrest := ih fun d hd => h d (List.mem_cons_of_mem c hd)
    obtain rfl := h c List.mem_cons_self hend
    simp only [segments_lineFeed_cons, isWhole_lineFeed_cons, hrest, List.map_cons,
      List.cons_append]
    rfl
  | case4 c rest _ hend line more hlines ih =>
    have hrest := ih fun d hd => h d (List.mem_cons_of_mem c hd)
    have hc : c ≠ '\n' := by
      rintro rfl
      exact hend rfl
    have hne : rest ≠ [] := by
      rintro rfl
      cases hlines
    rw [segments_cons_of_ne hc, hrest, hlines]
    simp only [isWhole_cons hne, List.map_cons, List.cons_append, List.modifyHead_cons,
      withoutLast_cons_of_ne hc]
  | case5 c rest _ hend hlines ih =>
    have hc : c ≠ '\n' := by
      rintro rfl
      exact hend rfl
    obtain rfl : rest = [] := by
      rw [← flatten_linesWithEnds rest, hlines, List.flatten_nil]
    simp [segments, IsWhole, withoutLast, hc]

/-- **The pieces of an ordinary text are its lines.** Without carriage returns at their ends, the
pieces between its line feeds are the lines that it has with line feeds alone, without these. If the
last line is ended, an empty piece follows. -/
theorem segments_eq_lines {text : List Char} (hpaired : IsPaired text)
    (hends : ∀ c ∈ text, c.toNat ∉ otherLineEnds) :
    (segments text).map (withoutLast '\r') =
      (linesWithEnds (withLineFeeds text)).map (withoutLast '\n') ++
        if IsWhole text then [[]] else [] := by
  have honly : ∀ c ∈ withLineFeeds text, isLineEnd c = true → c = '\n' := by
    intro c hc hend
    rcases mem_withLineFeeds hc with heq | ⟨hmem, hreturn⟩
    · exact heq
    · exact (eq_of_isLineEnd hend (hends c hmem)).resolve_right hreturn
  rw [← segments_withLineFeeds hpaired, segments_eq_map_linesWithEnds honly]
  simp only [isWhole_withLineFeeds hpaired]

end PhpAudit.Text
