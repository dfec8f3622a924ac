import PhpAudit.Text.Lines

/-!
# Texts cut at line feeds

How many pieces a text has. The count is that of its line feeds and one, so there is a piece in
every text, and a file that is empty has one line. The pieces are those of `List.splitOn`.
-/

namespace PhpAudit.Text

/-- There is always a piece, if only an empty one. -/
theorem segments_ne_nil (text : List Char) : segments text ≠ [] := by
  induction text with
  | nil => simp only [segments, ne_eq, List.cons_ne_self, not_false_eq_true]
  | cons c rest ih =>
    unfold segments
    split
    · exact List.cons_ne_nil _ _
    · split
      · exact List.cons_ne_nil _ _
      · exact List.cons_ne_nil _ _

/-- A text has one piece more than it has line feeds. -/
theorem length_segments (text : List Char) :
    (segments text).length = text.count '\n' + 1 := by
  induction text with
  | nil => rfl
  | cons c rest ih =>
    unfold segments
    split
    · next hc => rw [List.length_cons, ih, hc, List.count_cons_self]
    · next hc =>
      rw [List.count_cons_of_ne hc, ← ih]
      cases hs : segments rest with
      | nil => exact absurd hs (segments_ne_nil rest)
      | cons first more => rfl

/-- A line feed ends a piece. -/
theorem segments_lineFeed_cons (rest : List Char) : segments ('\n' :: rest) = [] :: segments rest := by
  rw [segments, if_pos rfl]

/-- Any other character belongs to the first piece. -/
theorem segments_cons_of_ne {c : Char} (hc : c ≠ '\n') (rest : List Char) :
    segments (c :: rest) = (segments rest).modifyHead (c :: ·) := by
  rw [segments, if_neg hc]
  cases hs : segments rest with
  | nil => exact absurd hs (segments_ne_nil rest)
  | cons first more => rfl

/-- The pieces are what stands between the line feeds. -/
theorem segments_eq_splitOn (text : List Char) : segments text = text.splitOn '\n' := by
  induction text with
  | nil => rfl
  | cons c rest ih =>
    rw [List.splitOn_cons_eq_if_modifyHead, ← ih]
    by_cases hc : c = '\n'
    · rw [hc, if_pos (by decide), segments_lineFeed_cons]
    · rw [if_neg (by simpa using hc), segments_cons_of_ne hc]

/-- A piece holds characters of the text, and no line feed. -/
theorem mem_of_mem_segments {text piece : List Char} (hpiece : piece ∈ segments text) {c : Char}
    (hc : c ∈ piece) : c ∈ text ∧ c ≠ '\n' := by
  induction text generalizing piece with
  | nil =>
    rw [List.mem_singleton.mp hpiece] at hc
    cases hc
  | cons d rest ih =>
    rw [segments] at hpiece
    split at hpiece
    next =>
      rcases List.mem_cons.mp hpiece with rfl | hpiece
      · cases hc
      · exact (ih hpiece hc).imp_left (List.mem_cons_of_mem d)
    next hd =>
      cases hs : segments rest with
      | nil => exact absurd hs (segments_ne_nil rest)
      | cons first more =>
        rw [hs] at hpiece ih
        rcases List.mem_cons.mp hpiece with rfl | hpiece
        · rcases List.mem_cons.mp hc with rfl | hc
          · exact ⟨List.mem_cons_self, hd⟩
          · exact (ih List.mem_cons_self hc).imp_left (List.mem_cons_of_mem d)
        · exact (ih (List.mem_cons_of_mem _ hpiece) hc).imp_left (List.mem_cons_of_mem d)

/-- Every other character of a text is in a piece. -/
theorem exists_mem_segments {text : List Char} {c : Char} (hc : c ∈ text) (hne : c ≠ '\n') :
    ∃ piece ∈ segments text, c ∈ piece := by
  induction text with
  | nil => cases hc
  | cons d rest ih =>
    by_cases hd : d = '\n'
    · rw [hd, segments_lineFeed_cons]
      obtain ⟨piece, hpiece, hmem⟩ := ih (List.mem_of_ne_of_mem (hd ▸ hne) hc)
      exact ⟨piece, List.mem_cons_of_mem _ hpiece, hmem⟩
    · rw [segments_cons_of_ne hd]
      cases hs : segments rest with
      | nil => exact absurd hs (segments_ne_nil rest)
      | cons first more =>
        rw [hs] at ih
        rw [List.modifyHead_cons]
        rcases List.mem_cons.mp hc with rfl | hc
        · exact ⟨_, List.mem_cons_self, List.mem_cons_self⟩
        · obtain ⟨piece, hpiece, hmem⟩ := ih hc
          rcases List.mem_cons.mp hpiece with rfl | hpiece
          · exact ⟨_, List.mem_cons_self, List.mem_cons_of_mem d hmem⟩
          · exact ⟨piece, List.mem_cons_of_mem _ hpiece, hmem⟩

/-- A line feed cuts off what stands in front of it. -/
theorem segments_append {line : List Char} (hline : '\n' ∉ line) (rest : List Char) :
    segments (line ++ '\n' :: rest) = line :: segments rest := by
  induction line with
  | nil => rw [List.nil_append, segments, if_pos rfl]
  | cons c line ih =>
    rw [List.mem_cons, not_or] at hline
    rw [List.cons_append, segments, if_neg (Ne.symm hline.1), ih hline.2]

/-- A text without line feeds is one piece. -/
theorem segments_of_notMem {text : List Char} (h : '\n' ∉ text) : segments text = [text] := by
  induction text with
  | nil => rfl
  | cons c text ih =>
    rw [List.mem_cons, not_or] at h
    rw [segments_cons_of_ne (Ne.symm h.1), ih h.2, List.modifyHead_cons]

/-- What is written line by line has these lines, and nothing behind the last line feed. -/
theorem splitOn_lines {lines : List (List Char)} (hlines : ∀ line ∈ lines, '\n' ∉ line) :
    (lines.flatMap (· ++ ['\n'])).splitOn '\n' = lines ++ [[]] := by
  rw [← segments_eq_splitOn]
  induction lines with
  | nil => rfl
  | cons line lines ih =>
    obtain ⟨hline, hlines⟩ := List.forall_mem_cons.mp hlines
    rw [List.flatMap_cons, List.append_assoc, List.singleton_append, segments_append hline,
      ih hlines, List.cons_append]

end PhpAudit.Text
