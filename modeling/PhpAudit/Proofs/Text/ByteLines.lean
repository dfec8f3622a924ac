import Mathlib.Data.List.DropRight
import Mathlib.Data.List.TakeWhile
import PhpAudit.Proofs.Text.Ascii
import PhpAudit.Proofs.Text.Segments
import PhpAudit.Proofs.Text.Spans

/-!
# Lines of bytes

Lines can be counted before a content is decoded or after it. `segments_decode` says that it is
the same: the pieces of the decoded text are the pieces of the bytes, each decoded on its own. A
line feed ends whatever sequence stands before it, well-formed or not, as every byte that low does
(`decode_append_ascii`); and no sequence writes a line feed but the byte itself.

The line that an offset lies in is the one whose number is that of the line feeds before it
(`getElem?_splitOn_count`).
-/

namespace PhpAudit.Text

/-! ## Pieces of lists -/

variable {α : Type} [BEq α] [LawfulBEq α]

theorem length_splitOn (sep : α) (items : List α) :
    (items.splitOn sep).length = items.count sep + 1 := by
  induction items with
  | nil => rfl
  | cons item rest ih =>
    rw [List.splitOn_cons_eq_if_modifyHead]
    by_cases h : item = sep
    · rw [if_pos (beq_iff_eq.mpr h), List.length_cons, ih, h, List.count_cons_self]
    · rw [if_neg (by simpa using h), List.length_modifyHead, ih, List.count_cons_of_ne h]

/-- The piece that an offset lies in: what stands before the offset back to a separator, and what
stands behind it up to one. -/
def pieceAt (sep : α) (items : List α) (offset : Nat) : List α :=
  (items.take offset).rtakeWhile (· != sep) ++ (items.drop offset).takeWhile (· != sep)

/-- The first piece of a list that starts without a separator. -/
theorem head?_splitOn_append {sep : α} {front : List α} (h : sep ∉ front) (items : List α) :
    ((front ++ items).splitOn sep).head? = some (front ++ items.takeWhile (· != sep)) := by
  by_cases hmem : sep ∈ items
  · obtain ⟨before, rest, rfl, hbefore⟩ := List.eq_append_cons_of_mem hmem
    have hnone : sep ∉ front ++ before := by
      rw [List.mem_append, not_or]
      exact ⟨h, hbefore⟩
    rw [takeWhile_append_sep hbefore, ← List.append_assoc,
      List.splitOn_append_cons_self_of_not_mem hnone, List.head?_cons]
  · have hnone : sep ∉ front ++ items := by
      rw [List.mem_append, not_or]
      exact ⟨h, hmem⟩
    rw [List.splitOn_eq_singleton hnone, List.takeWhile_eq_self_iff.mpr (ne_of_notMem hmem),
      List.head?_cons]

/-- An offset lies in the piece whose number is that of the separators before it. -/
theorem getElem?_splitOn_count (sep : α) (items : List α) (offset : Nat) :
    (items.splitOn sep)[(items.take offset).count sep]? = some (pieceAt sep items offset) := by
  have hwhole := List.take_append_drop offset items
  rw [pieceAt, List.rtakeWhile]
  generalize items.take offset = front at hwhole ⊢
  generalize items.drop offset = behind at hwhole ⊢
  subst hwhole
  by_cases hmem : sep ∈ front.reverse
  · -- cut the front at its last separator
    obtain ⟨last, before, hfront, hlast⟩ := List.eq_append_cons_of_mem hmem
    have hlast' : sep ∉ last.reverse := fun h => hlast (List.mem_reverse.mp h)
    have hcut : front = before.reverse ++ sep :: last.reverse := by
      rw [← List.reverse_reverse front, hfront, List.reverse_append, List.reverse_cons,
        List.append_assoc, List.singleton_append]
    have hcount : front.count sep = (before.reverse.splitOn sep).length := by
      rw [hcut, List.count_append, List.count_cons_self, List.count_eq_zero_of_not_mem hlast',
        length_splitOn]
    rw [hfront, takeWhile_append_sep hlast, hcount, hcut, List.append_assoc, List.cons_append,
      List.splitOn_append_cons_self, List.getElem?_append_right (Nat.le_refl _), Nat.sub_self,
      ← List.head?_eq_getElem?, head?_splitOn_append hlast']
  · have hfront : sep ∉ front := fun h => hmem (List.mem_reverse.mpr h)
    rw [List.takeWhile_eq_self_iff.mpr (ne_of_notMem hmem), List.reverse_reverse,
      List.count_eq_zero_of_not_mem hfront, ← List.head?_eq_getElem?, head?_splitOn_append hfront]

namespace Utf8

/-! ## Line feeds in byte strings -/

/-- A text has a line feed only where the bytes have one. -/
theorem Replaces.lineFeed_mem {bytes : List UInt8} {text : List Char} (h : Replaces bytes text)
    (hmem : '\n' ∈ text) : (0x0A : UInt8) ∈ bytes := by
  induction h with
  | nil => cases hmem
  | @char c rest text _ ih =>
    rcases List.mem_cons.mp hmem with rfl | hrest
    · exact List.mem_append_left _ (by decide)
    · exact List.mem_append_right _ (ih hrest)
  | part _ _ ih =>
    rcases List.mem_cons.mp hmem with heq | hrest
    · exact absurd heq (by decide)
    · exact List.mem_append_right _ (ih hrest)

/-- **Lines are decoded one by one.** The pieces of a decoded text between line feeds are the pieces
of its bytes, each decoded on its own. -/
theorem segments_decode (bytes : List UInt8) :
    segments (decode bytes) = (bytes.splitOn 0x0A).map decode := by
  rw [segments_eq_splitOn]
  induction hlength : bytes.length using Nat.strongRecOn generalizing bytes with
  | ind length ih =>
    by_cases hmem : (0x0A : UInt8) ∈ bytes
    · obtain ⟨front, rest, rfl, hfront⟩ := List.eq_append_cons_of_mem hmem
      have hdecode : decode (front ++ 0x0A :: rest) = decode front ++ '\n' :: decode rest :=
        decode_append_ascii front (by decide) rest
      have hshort : rest.length < length := by
        rw [← hlength, List.length_append, List.length_cons]
        omega
      rw [hdecode, List.splitOn_append_cons_self_of_not_mem
          fun h => hfront ((replaces_decode front).lineFeed_mem h),
        List.splitOn_append_cons_self_of_not_mem hfront, List.map_cons, ih _ hshort rest rfl]
    · rw [List.splitOn_eq_singleton fun h => hmem ((replaces_decode bytes).lineFeed_mem h),
        List.splitOn_eq_singleton hmem, List.map_singleton]

end Utf8

end PhpAudit.Text
