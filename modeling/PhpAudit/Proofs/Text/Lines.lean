import PhpAudit.Text.Lines

/-!
# Lines of a text

Turning carriage returns into line feeds changes no other character. Cutting a text into lines loses
nothing: with what ends them, the lines are the text again. It cuts behind every line end and nowhere
else (`areLines_linesWithEnds`).
-/

namespace PhpAudit.Text

/-! ## Line feeds in place of carriage returns -/

/-- Line feeds are all that is left of carriage returns. -/
theorem mem_withLineFeeds {text : List Char} {c : Char} (h : c ∈ withLineFeeds text) :
    c = '\n' ∨ c ∈ text ∧ c ≠ '\r' := by
  fun_induction withLineFeeds text with
  | case1 => cases h
  | case2 rest ih =>
    rcases List.mem_cons.mp h with rfl | h
    · exact .inl rfl
    · exact (ih h).imp_right fun ⟨hmem, hne⟩ =>
        ⟨List.mem_cons_of_mem _ (List.mem_cons_of_mem _ hmem), hne⟩
  | case3 rest _ ih =>
    rcases List.mem_cons.mp h with rfl | h
    · exact .inl rfl
    · exact (ih h).imp_right fun ⟨hmem, hne⟩ => ⟨List.mem_cons_of_mem _ hmem, hne⟩
  | case4 d rest _ hreturn ih =>
    rcases List.mem_cons.mp h with rfl | h
    · exact .inr ⟨List.mem_cons_self, hreturn⟩
    · exact (ih h).imp_right fun ⟨hmem, hne⟩ => ⟨List.mem_cons_of_mem _ hmem, hne⟩

theorem withLineFeeds_cons_of_ne {c : Char} (h : c ≠ '\r') (text : List Char) :
    withLineFeeds (c :: text) = c :: withLineFeeds text :=
  withLineFeeds.eq_4 c text (fun _ hc => absurd hc h) (fun hc => absurd hc h)

theorem withLineFeeds_return_cons {text : List Char} (h : text.head? ≠ some '\n') :
    withLineFeeds ('\r' :: text) = '\n' :: withLineFeeds text := by
  refine withLineFeeds.eq_3 text fun rest hrest => h ?_
  rw [hrest, List.head?_cons]

theorem withLineFeeds_eq_nil_iff {text : List Char} : withLineFeeds text = [] ↔ text = [] := by
  fun_cases withLineFeeds text with
  | case1 => simp
  | case2 rest => simp
  | case3 rest _ => simp
  | case4 c rest _ _ => simp

/-! ## Lines -/

/-- The lines of a text with their ends come to the text. -/
theorem flatten_linesWithEnds (text : List Char) : (linesWithEnds text).flatten = text := by
  fun_induction linesWithEnds text with
  | case1 => rfl
  | case2 rest ih => rw [List.flatten_cons, ih]; rfl
  | case3 c rest _ _ ih => rw [List.flatten_cons, ih]; rfl
  | case4 c rest _ _ line more hlines ih =>
    rw [hlines] at ih
    rw [List.flatten_cons, List.cons_append, ← List.flatten_cons, ih]
  | case5 c rest _ _ hlines ih =>
    rw [hlines] at ih
    rw [← ih]
    rfl

/-- No line is empty, since each has what ends it or is the last one. -/
theorem ne_nil_of_mem_linesWithEnds {text line : List Char} (h : line ∈ linesWithEnds text) :
    line ≠ [] := by
  fun_induction linesWithEnds text with
  | case1 => cases h
  | case2 rest ih =>
    rcases List.mem_cons.mp h with rfl | h
    · exact List.cons_ne_nil _ _
    · exact ih h
  | case3 c rest _ _ ih =>
    rcases List.mem_cons.mp h with rfl | h
    · exact List.cons_ne_nil _ _
    · exact ih h
  | case4 c rest _ _ first more hlines ih =>
    rcases List.mem_cons.mp h with rfl | h
    · exact List.cons_ne_nil _ _
    · exact ih (hlines ▸ List.mem_cons_of_mem _ h)
  | case5 c rest _ _ hlines ih =>
    rw [List.mem_singleton.mp h]
    exact List.cons_ne_nil _ _

/-- The line ends of Unicode. -/
def lineEnds : List Char :=
  ['\n', '\x0b', '\x0c', '\r', '\x1c', '\x1d', '\x1e', '\x85', '\u2028', '\u2029']

theorem isLineEnd_iff_mem {c : Char} : isLineEnd c = true ↔ c ∈ lineEnds := by
  simp only [isLineEnd, lineEnds, Bool.or_eq_true, Bool.and_eq_true, decide_eq_true_eq, beq_iff_eq,
    List.mem_cons, List.not_mem_nil, or_false, ← Char.toNat_inj, Char.reduceToNat]
  omega

/-- What ends one line: a line end, or a carriage return with its line feed. -/
def IsEnding (ending : List Char) : Prop :=
  ending = ['\r', '\n'] ∨ ∃ c, isLineEnd c = true ∧ ending = [c]

/-- Lines that end where they are cut and nowhere else. Only the last one may not be ended. -/
inductive AreLines : List (List Char) → Prop where
  | nil : AreLines []
  | last {line : List Char} (hline : ∀ c ∈ line, isLineEnd c = false) : AreLines [line]
  | ended {body ending : List Char} {rest : List (List Char)}
      (hbody : ∀ c ∈ body, isLineEnd c = false) (hending : IsEnding ending)
      (hrest : AreLines rest) : AreLines ((body ++ ending) :: rest)

/-- A character that ends no line joins the first of the lines behind it. -/
theorem AreLines.cons_head {c : Char} {line : List Char} {more : List (List Char)}
    (hc : isLineEnd c = false) (h : AreLines (line :: more)) : AreLines ((c :: line) :: more) := by
  cases h with
  | last hline => exact .last (List.forall_mem_cons.mpr ⟨hc, hline⟩)
  | ended hbody hending hrest => exact .ended (List.forall_mem_cons.mpr ⟨hc, hbody⟩) hending hrest

/-- A text is cut behind its line ends. -/
theorem areLines_linesWithEnds (text : List Char) : AreLines (linesWithEnds text) := by
  fun_induction linesWithEnds text with
  | case1 => exact .nil
  | case2 rest ih => exact @AreLines.ended [] _ _ nofun (.inl rfl) ih
  | case3 c rest _ hend ih => exact @AreLines.ended [] _ _ nofun (.inr ⟨c, hend, rfl⟩) ih
  | case4 c rest _ hend line more hlines ih =>
    exact (hlines ▸ ih).cons_head (Bool.eq_false_iff.mpr hend)
  | case5 c rest _ hend hlines ih =>
    refine .last fun d hd => ?_
    rw [List.mem_singleton.mp hd]
    exact Bool.eq_false_iff.mpr hend

/-- All lines but the last are ended. -/
theorem AreLines.getLast?_of_mem_dropLast {lines : List (List Char)} (h : AreLines lines)
    {line : List Char} (hline : line ∈ lines.dropLast) :
    ∃ c, isLineEnd c = true ∧ line.getLast? = some c := by
  induction h with
  | nil => cases hline
  | last => cases hline
  | @ended body ending rest _ hending _ ih =>
    cases rest with
    | nil => cases hline
    | cons next more =>
      rcases List.mem_cons.mp hline with rfl | hline
      · rcases hending with rfl | ⟨c, hc, rfl⟩
        · exact ⟨'\n', rfl, by simp⟩
        · exact ⟨c, hc, by simp⟩
      · exact ih hline

/-- Without carriage returns, a line holds a line end only as its last character. -/
theorem AreLines.eq_nil_of_isLineEnd {lines : List (List Char)} (h : AreLines lines)
    {front back : List Char} {c : Char} (hline : front ++ c :: back ∈ lines)
    (hreturn : '\r' ∉ front ++ c :: back) (hc : isLineEnd c = true) : back = [] := by
  induction h with
  | nil => cases hline
  | last hbody =>
    rw [← List.mem_singleton.mp hline] at hbody
    exact absurd hc
      (Bool.eq_false_iff.mp (hbody c (List.mem_append_right front List.mem_cons_self)))
  | @ended body ending rest hbody hending _ ih =>
    rcases List.mem_cons.mp hline with heq | hline
    · rw [heq] at hreturn
      rcases hending with rfl | ⟨d, -, rfl⟩
      · exact absurd (List.mem_append_right body List.mem_cons_self) hreturn
      · rcases List.eq_nil_or_concat back with hback | ⟨inner, e, rfl⟩
        · exact hback
        · -- the line end would stand in front of the last character
          rw [List.concat_eq_append, ← List.cons_append, ← List.append_assoc] at heq
          rw [← (List.append_inj' heq rfl).1] at hbody
          exact absurd hc
            (Bool.eq_false_iff.mp (hbody c (List.mem_append_right front List.mem_cons_self)))
    · exact ih hline

/-- A line holds characters of the text. -/
theorem mem_of_mem_lines {text line : List Char} (hline : line ∈ lines text) {c : Char}
    (hc : c ∈ line) : c ∈ text := by
  obtain ⟨whole, hwhole, rfl⟩ := List.mem_map.mp hline
  rw [← flatten_linesWithEnds text]
  exact List.mem_flatten.mpr ⟨whole, hwhole, (List.mem_filter.mp hc).1⟩

/-- Every character that does not end a line is in one. -/
theorem exists_mem_lines {text : List Char} {c : Char} (hc : c ∈ text)
    (hend : isLineEnd c = false) : ∃ line ∈ lines text, c ∈ line := by
  rw [← flatten_linesWithEnds text] at hc
  obtain ⟨whole, hwhole, hmem⟩ := List.mem_flatten.mp hc
  refine ⟨_, List.mem_map_of_mem hwhole, List.mem_filter.mpr ⟨hmem, ?_⟩⟩
  rw [hend, Bool.not_false]

end PhpAudit.Text
