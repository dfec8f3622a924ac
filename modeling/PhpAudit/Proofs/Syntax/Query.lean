import Mathlib.Data.List.Infix
import PhpAudit.Proofs.Syntax.Walk
import PhpAudit.Syntax.Query

/-!
# What the string queries find

`hasConcatenation` and `hasInterpolation` look through every node of a forest. The laws here say
what they look for without the scans: a node of the right kind, or a literal whose text
`MentionsVariable`. A stream is another matter, because its nodes are gone after one walk.
-/

namespace PhpAudit.Syntax.Subject

/-! ## Texts that mention a variable -/

/-- What a text looks like when a variable is put into it: an opening brace before a dollar sign, or
a dollar sign before a character of a word. -/
def MentionsVariable (text : List Char) : Prop :=
  ['\x7b', '$'] <:+: text ∨ ∃ c, Text.isWordChar c = true ∧ ['$', c] <:+: text

/-- Two characters in front of a text or inside its rest. -/
private theorem pair_infix_cons {a b c : Char} {text : List Char} :
    [a, b] <:+: c :: text ↔ (a = c ∧ text.head? = some b) ∨ [a, b] <:+: text := by
  rw [List.infix_cons_iff, List.cons_prefix_cons]
  cases text with
  | nil => simp
  | cons d rest => simp [eq_comm (a := b)]

/-- A text that mentions a variable does so at its first character or further on. -/
theorem mentionsVariable_cons (c : Char) (text : List Char) :
    MentionsVariable (c :: text) ↔
      (c = '\x7b' ∧ text.head? = some '$') ∨
        (c = '$' ∧ ∃ d, Text.isWordChar d = true ∧ text.head? = some d) ∨
          MentionsVariable text := by
  simp only [MentionsVariable, pair_infix_cons, eq_comm (a := c)]
  constructor
  · rintro ((h | h) | ⟨d, hd, h | h⟩)
    · exact .inl h
    · exact .inr (.inr (.inl h))
    · exact .inr (.inl ⟨h.1, d, hd, h.2⟩)
    · exact .inr (.inr (.inr ⟨d, hd, h⟩))
  · rintro (h | ⟨h, d, hd, hhead⟩ | h | ⟨d, hd, h⟩)
    · exact .inl (.inl h)
    · exact .inr ⟨d, hd, .inl ⟨h, hhead⟩⟩
    · exact .inl (.inr h)
    · exact .inr ⟨d, hd, .inr h⟩

/-- The scan for a variable finds one exactly when the text mentions one. -/
theorem mentionsVariable_iff (text : List Char) :
    mentionsVariable text = true ↔ MentionsVariable text := by
  fun_induction mentionsVariable text with
  | case1 rest => simp [mentionsVariable_cons]
  | case2 c rest ih => simp [mentionsVariable_cons (c := '$'), ih]
  | case3 c rest hbrace hdollar ih =>
    rw [mentionsVariable_cons, ih]
    constructor
    · exact fun h => .inr (.inr h)
    · rintro (⟨rfl, h⟩ | ⟨rfl, d, -, h⟩ | h)
      · obtain ⟨tail, rfl⟩ := List.head?_eq_some_iff.mp h
        exact absurd rfl (hbrace tail rfl)
      · obtain ⟨tail, rfl⟩ := List.head?_eq_some_iff.mp h
        exact absurd rfl (hdollar d tail rfl)
      · exact h
  | case4 => simp [MentionsVariable]

/-- Only a literal that has a value can look as if a variable were put into it. -/
theorem looksInterpolated_iff (node : Node) :
    looksInterpolated node = true ↔
      ∃ value, node.value = some value ∧ MentionsVariable value.toList := by
  rw [looksInterpolated, mentionsVariable_iff]
  cases node.value with
  | none =>
    -- the empty text stands for the value that is missing
    refine ⟨fun h => ?_, fun ⟨_, h, _⟩ => nomatch h⟩
    simp [MentionsVariable] at h
  | some value => simp

/-! ## The queries on a forest -/

/-- A forest has a concatenation when the walk comes to one. -/
theorem hasConcatenation_forest (nodes : Forest) :
    (forest nodes).hasConcatenation = true ↔ ∃ node ∈ walk nodes, node.isKind .concat = true := by
  rw [hasConcatenation, findFirst?, List.find?_isSome]
  rfl

/-- A forest has an interpolation when the walk comes to an interpolated string, or to a plain one
whose value mentions a variable. -/
theorem hasInterpolation_forest (nodes : Forest) :
    (forest nodes).hasInterpolation = true ↔
      ∃ node ∈ walk nodes, node.isKind .interpolatedString = true ∨
        node.isKind .string = true ∧
          ∃ value, node.value = some value ∧ MentionsVariable value.toList := by
  have hsecond : ((forest nodes).ofKind NodeKind.string.text).any looksInterpolated = true ↔
      ∃ node ∈ walk nodes, node.isKind .string = true ∧ looksInterpolated node = true := by
    rw [List.any_eq_true]
    refine exists_congr fun node => ?_
    rw [ofKind, findAll, List.mem_filter, and_assoc]
    rfl
  rw [hasInterpolation, visit, Bool.or_eq_true, List.find?_isSome, hsecond]
  simp only [looksInterpolated_iff, ← exists_or, ← and_or_left]

end PhpAudit.Syntax.Subject
