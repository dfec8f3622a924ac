import Mathlib.Data.List.TakeDrop
import Mathlib.Data.List.TakeWhile
import PhpAudit.Pattern.Wildcard
import PhpAudit.Proofs.Text.Spans

/-!
# What wildcards match

`Denotes` reads a wildcard off its text, one part after the other, and does not say how a match is
found. A search that tries every end for each `*` finds a match whenever there is one
(`matchesName_iff`).
-/

namespace PhpAudit.Wildcard

/-- What can stand between brackets: something, and a closing bracket only in front. An exclamation
mark in front of that is no part of it. -/
def IsSet (content : List Char) : Prop :=
  ∃ mark first rest, content = mark ++ first :: rest ∧ ']' ∉ rest ∧
    (mark = ['!'] ∨ mark = [] ∧ first ≠ '!')

/-- The characters that the content of brackets names, read from left to right. A hyphen between two
characters makes them a range, which is empty if they are in the wrong order; everything else stands
for itself. -/
inductive Names : List Char → Char → Prop where
  | range {low high c : Char} {rest : List Char} :
      low ≤ c → c ≤ high → Names (low :: '-' :: high :: rest) c
  | behindRange {low high c : Char} {rest : List Char} :
      Names rest c → Names (low :: '-' :: high :: rest) c
  | char {c : Char} {rest : List Char} :
      (∀ high more, rest ≠ '-' :: high :: more) → Names (c :: rest) c
  | behindChar {c d : Char} {rest : List Char} :
      (∀ high more, rest ≠ '-' :: high :: more) → Names rest c → Names (d :: rest) c

/-- The characters that brackets stand for: those that their content names, or all others if an
exclamation mark stands in front of it. -/
inductive StandsFor : List Char → Char → Prop where
  | named {content : List Char} {c : Char} :
      content.head? ≠ some '!' → Names content c → StandsFor content c
  | others {content : List Char} {c : Char} : ¬ Names content c → StandsFor ('!' :: content) c

/-- The texts that a wildcard stands for. -/
inductive Denotes : List Char → List Char → Prop where
  | nil : Denotes [] []
  /-- A star stands for any text, slashes included. -/
  | many {wildcard text : List Char} (front : List Char) :
      Denotes wildcard text → Denotes ('*' :: wildcard) (front ++ text)
  /-- A question mark stands for any character. -/
  | any {wildcard text : List Char} (c : Char) :
      Denotes wildcard text → Denotes ('?' :: wildcard) (c :: text)
  /-- Brackets stand for one character. -/
  | set {content wildcard text : List Char} {c : Char} :
      IsSet content → StandsFor content c →
      Denotes wildcard text → Denotes ('[' :: (content ++ ']' :: wildcard)) (c :: text)
  /-- A bracket that nothing closes stands for itself. -/
  | bracket {wildcard text : List Char} :
      (∀ content rest, IsSet content → wildcard ≠ content ++ ']' :: rest) →
      Denotes wildcard text → Denotes ('[' :: wildcard) ('[' :: text)
  /-- All other characters stand for themselves. -/
  | char {wildcard text : List Char} {c : Char} :
      c ≠ '*' → c ≠ '?' → c ≠ '[' → Denotes wildcard text → Denotes (c :: wildcard) (c :: text)

/-! ## Brackets -/

/-- Brackets are closed by the first closing bracket that can close them. -/
theorem takeBrackets?_append {content : List Char} (rest : List Char) (h : IsSet content) :
    takeBrackets? (content ++ ']' :: rest) = some (content, rest) := by
  obtain ⟨mark, first, members, rfl, hmembers, hmark⟩ := h
  by_cases hfirst : first = ']'
  · have hspan := Text.span_append_sep hmembers rest
    rcases hmark with rfl | ⟨rfl, -⟩
    · simp [takeBrackets?, hfirst, hspan, -List.span_eq_takeWhile_dropWhile]
    · simp [takeBrackets?, hfirst, hspan, -List.span_eq_takeWhile_dropWhile]
  · have hspan :=
      Text.span_append_sep (List.not_mem_cons_of_ne_of_not_mem (Ne.symm hfirst) hmembers) rest
    rw [List.cons_append] at hspan
    rcases hmark with rfl | ⟨rfl, hmark⟩
    · simp [takeBrackets?, hfirst, hspan, -List.span_eq_takeWhile_dropWhile]
    · simp [takeBrackets?, hfirst, hmark, hspan, -List.span_eq_takeWhile_dropWhile]

/-- The content of a bracket is a set up to the first bracket that can close it. -/
theorem takeBrackets?_eq_some {text content rest : List Char} :
    takeBrackets? text = some (content, rest) ↔
      IsSet content ∧ text = content ++ ']' :: rest := by
  constructor
  · intro h
    unfold takeBrackets? at h
    split at h
    next mark inner hmark =>
    split at h
    next bracket inner' hbracket =>
    split at h
    · next body c rest' hspan =>
      obtain ⟨rfl, hbody⟩ := Text.eq_append_of_span hspan
      obtain ⟨rfl, rfl⟩ := Prod.mk.inj (Option.some.inj h)
      -- a closing bracket right behind the mark is a member and closes nothing
      have hinner : ∃ first members, bracket ++ body = first :: members ∧ ']' ∉ members ∧
          inner = first :: (members ++ ']' :: rest') := by
        split at hbracket
        · obtain ⟨rfl, rfl⟩ := Prod.mk.inj hbracket
          exact ⟨']', body, rfl, hbody, rfl⟩
        · next hfront =>
          obtain ⟨rfl, rfl⟩ := Prod.mk.inj hbracket
          cases body with
          | nil => exact absurd rfl (hfront rest')
          | cons first members =>
            exact ⟨first, members, rfl, fun hmem => hbody (List.mem_cons_of_mem _ hmem), rfl⟩
      obtain ⟨first, members, hcontent, hmembers, rfl⟩ := hinner
      rw [List.append_assoc, hcontent]
      split at hmark
      · obtain ⟨rfl, rfl⟩ := Prod.mk.inj hmark
        exact ⟨⟨['!'], first, members, rfl, hmembers, .inl rfl⟩, rfl⟩
      · next hfront =>
        obtain ⟨rfl, rfl⟩ := Prod.mk.inj hmark
        refine ⟨⟨[], first, members, rfl, hmembers, .inr ⟨rfl, ?_⟩⟩, rfl⟩
        rintro rfl
        exact hfront _ rfl
    · cases h
  · rintro ⟨hset, rfl⟩
    exact takeBrackets?_append rest hset

/-! ## Sets -/

section sets

variable {c d e low high : Char} {content chunk more rest : List Char} {parts : List (List Char)}

/-- The set of some characters holds just these. -/
theorem contains_setOf {chars : List Char} : (setOf chars).contains c = true ↔ c ∈ chars := by
  induction chars with
  | nil => simp [setOf, CharSet.contains]
  | cons d chars ih =>
    rw [List.mem_cons, ← ih]
    simp [setOf, CharSet.contains]

/-- What chunks come to as a set: their characters and the ranges between them. -/
def partsSet (parts : List (List Char)) : CharSet := .union (setOf parts.flatten) (rangesOf parts)

/-- The set of some parts holds the characters of the parts and those of the ranges between them. -/
theorem contains_partsSet :
    (partsSet parts).contains c = true ↔ c ∈ parts.flatten ∨ (rangesOf parts).contains c = true := by
  rw [partsSet, CharSet.contains, Bool.or_eq_true, contains_setOf]

/-- Chunks with one more character in front. -/
def prepend (d : Char) : List (List Char) → List (List Char)
  | chunk :: parts => (d :: chunk) :: parts
  | [] => [[d]]

/-- A character in front is one more member: it is no end of a range as long as another character
follows it in its chunk. -/
theorem contains_partsSet_prepend (h : chunk ≠ [] ∨ parts = []) :
    (partsSet (prepend d (chunk :: parts))).contains c = true ↔
      c = d ∨ (partsSet (chunk :: parts)).contains c = true := by
  have hranges : rangesOf ((d :: chunk) :: parts) = rangesOf (chunk :: parts) := by
    cases parts with
    | nil => rfl
    | cons next parts =>
      obtain ⟨e, chunk, rfl⟩ := List.exists_cons_of_ne_nil (h.resolve_right (List.cons_ne_nil _ _))
      rw [rangesOf, rangesOf, List.getLast?_cons_cons]
  rw [prepend, contains_partsSet, contains_partsSet, hranges, List.flatten_cons, List.flatten_cons,
    List.cons_append, List.mem_cons, or_assoc]

/-- Joining does not see what stands in front of a chunk that is not empty. -/
theorem joinChunk_cons (h : chunk ≠ []) (d : Char) (parts : List (List Char)) :
    joinChunk (d :: chunk) parts = prepend d (joinChunk chunk parts) := by
  obtain ⟨e, chunk, rfl⟩ := List.exists_cons_of_ne_nil h
  cases parts with
  | nil => rfl
  | cons next parts =>
    simp only [joinChunk, List.getLast?_cons_cons]
    split
    next => split <;> rfl
    next => rfl

/-- The first chunk of a content starts with its first character. -/
theorem chunks_eq_cons (fuel : Nat) (e : Char) (more : List Char) :
    ∃ chunk parts, chunks fuel 1 (e :: more) = (e :: chunk) :: parts := by
  cases fuel with
  | zero => exact ⟨more, [], rfl⟩
  | succ fuel =>
    obtain ⟨chunk, back, hspan⟩ : ∃ chunk back, more.span (· != '-') = (chunk, back) := ⟨_, _, rfl⟩
    rw [chunks, cutAtHyphen, List.drop_succ_cons, List.drop_zero, hspan]
    cases back with
    | nil => exact ⟨chunk, [], rfl⟩
    | cons hyphen back => cases back <;> exact ⟨_, _, rfl⟩

/-- A character in front of another one that is no hyphen is in the same chunk. -/
theorem chunks_cons_of_ne (fuel : Nat) (d : Char) (he : e ≠ '-') (more : List Char) :
    chunks fuel 1 (d :: e :: more) = prepend d (chunks fuel 1 (e :: more)) := by
  cases fuel with
  | zero => rfl
  | succ fuel =>
    have hspan : (e :: more).span (· != '-') =
        (e :: (more.span (· != '-')).1, (more.span (· != '-')).2) := by
      simp [List.span_eq_takeWhile_dropWhile, he]
    simp only [chunks, cutAtHyphen, List.drop_succ_cons, List.drop_zero, hspan]
    rcases more.span (· != '-') with ⟨chunk, _ | ⟨hyphen, _ | ⟨first, back⟩⟩⟩ <;> rfl

/-- Behind a range, the upper end of it is in the chunk of what follows. -/
theorem chunks_two_cons (fuel : Nat) (high e : Char) (more : List Char) :
    chunks fuel 2 (high :: e :: more) = prepend high (chunks fuel 1 (e :: more)) := by
  cases fuel with
  | zero => rfl
  | succ fuel =>
    simp only [chunks, cutAtHyphen, List.drop_succ_cons, List.drop_zero]
    rcases more.span (· != '-') with ⟨chunk, _ | ⟨hyphen, _ | ⟨first, back⟩⟩⟩ <;> rfl

/-- The chunks of a content, without empty ranges. -/
def joined (fuel skip : Nat) (content : List Char) : List (List Char) :=
  (chunks fuel skip content).foldr joinChunk []

/-- What is put in front of the chunks of a content stays in front when they are joined. -/
theorem foldr_prepend_chunks (fuel : Nat) (d e : Char) (more : List Char) :
    (prepend d (chunks fuel 1 (e :: more))).foldr joinChunk [] =
      prepend d (joined fuel 1 (e :: more)) := by
  obtain ⟨chunk, parts, hchunks⟩ := chunks_eq_cons fuel e more
  rw [joined, hchunks, prepend, List.foldr_cons, List.foldr_cons,
    joinChunk_cons (List.cons_ne_nil e chunk)]

/-- A range names its own characters, and what follows names others. -/
theorem names_range_iff :
    Names (low :: '-' :: high :: rest) c ↔ low ≤ c ∧ c ≤ high ∨ Names rest c := by
  constructor
  · intro h
    cases h with
    | range hlow hhigh => exact .inl ⟨hlow, hhigh⟩
    | behindRange h => exact .inr h
    | char h => exact absurd rfl (h _ _)
    | behindChar h => exact absurd rfl (h _ _)
  · rintro (⟨hlow, hhigh⟩ | h)
    · exact .range hlow hhigh
    · exact .behindRange h

/-- A character that starts no range names itself. -/
theorem names_char_iff (hrest : ∀ high more, rest ≠ '-' :: high :: more) :
    Names (d :: rest) c ↔ c = d ∨ Names rest c := by
  constructor
  · intro h
    cases h with
    | range => exact absurd rfl (hrest _ _)
    | behindRange => exact absurd rfl (hrest _ _)
    | char => exact .inl rfl
    | behindChar _ h => exact .inr h
  · rintro (rfl | h)
    · exact .char hrest
    · exact .behindChar hrest h

/-- Joined chunks hold what a content names. Only a single chunk may be empty, so that further
characters can be put in front. -/
structure Holds (parts : List (List Char)) (content : List Char) : Prop where
  exists_first : ∃ chunk rest, parts = chunk :: rest ∧ (chunk ≠ [] ∨ rest = [])
  contains : ∀ c, (partsSet parts).contains c = true ↔ Names content c

theorem holds_nil : Holds [[]] [] :=
  ⟨⟨[], [], rfl, .inr rfl⟩, fun _ => iff_of_false Bool.false_ne_true nofun⟩

/-- A character in front of the first part is one more member, where it opens no range. -/
theorem Holds.prepend (h : Holds parts rest) (d : Char)
    (hrest : ∀ high more, rest ≠ '-' :: high :: more) : Holds (prepend d parts) (d :: rest) := by
  obtain ⟨⟨chunk, parts, rfl, hfirst⟩, hcontains⟩ := h
  refine ⟨⟨d :: chunk, parts, rfl, .inl (List.cons_ne_nil _ _)⟩, fun c => ?_⟩
  rw [contains_partsSet_prepend hfirst, hcontains, names_char_iff hrest]

/-- A range in front of other chunks is one more range, or nothing if its ends are in the wrong
order. -/
theorem Holds.range (h : Holds parts rest) (low high : Char) :
    Holds (joinChunk [low] (Wildcard.prepend high parts)) (low :: '-' :: high :: rest) := by
  obtain ⟨⟨chunk, parts, rfl, hfirst⟩, hcontains⟩ := h
  have hjoin : joinChunk [low] (Wildcard.prepend high (chunk :: parts)) =
      if high < low then chunk :: parts else [low] :: (high :: chunk) :: parts := rfl
  rw [hjoin]
  split
  next hlt =>
    refine ⟨⟨chunk, parts, rfl, hfirst⟩, fun c => ?_⟩
    have hnone : ¬ (low ≤ c ∧ c ≤ high) := fun hc =>
      absurd (Char.le_trans hc.1 hc.2) (Char.not_le.mpr hlt)
    rw [hcontains, names_range_iff, or_iff_right hnone]
  next hle =>
    refine ⟨⟨[low], _, rfl, .inl (List.cons_ne_nil _ _)⟩, fun c => ?_⟩
    have hle := Char.not_lt.mp hle
    have hinner := contains_partsSet_prepend (c := c) (d := high) hfirst
    have hranges : (rangesOf ([low] :: (high :: chunk) :: parts)).contains c = true ↔
        (low ≤ c ∧ c ≤ high) ∨ (rangesOf ((high :: chunk) :: parts)).contains c = true := by
      simp only [rangesOf, List.getLast?_singleton, List.head?_cons, CharSet.contains,
        Bool.or_eq_true, Bool.and_eq_true, decide_eq_true_eq]
    rw [Wildcard.prepend, contains_partsSet, hcontains] at hinner
    rw [contains_partsSet, hranges, List.flatten_cons, List.mem_append, List.mem_singleton,
      names_range_iff]
    -- both ends belong to the range
    constructor
    · rintro ((rfl | hmem) | hrange | hmore)
      · exact .inl ⟨Char.le_refl _, hle⟩
      · rcases hinner.mp (.inl hmem) with rfl | hnames
        · exact .inl ⟨hle, Char.le_refl _⟩
        · exact .inr hnames
      · exact .inl hrange
      · rcases hinner.mp (.inr hmore) with rfl | hnames
        · exact .inl ⟨hle, Char.le_refl _⟩
        · exact .inr hnames
    · rintro (hrange | hnames)
      · exact .inr (.inl hrange)
      · exact (hinner.mpr (.inr hnames)).imp .inr .inr

theorem joined_nil (fuel : Nat) : joined fuel 1 [] = [[]] := by cases fuel <;> rfl

/-- The chunks of a content that starts with a range. -/
theorem joined_range (fuel : Nat) (low high : Char) (rest : List Char) :
    joined (fuel + 1) 1 (low :: '-' :: high :: rest) =
      joinChunk [low] (prepend high (joined fuel 1 rest)) := by
  have hchunks : chunks (fuel + 1) 1 (low :: '-' :: high :: rest) =
      [low] :: chunks fuel 2 (high :: rest) := rfl
  rw [joined, hchunks, List.foldr_cons]
  cases rest with
  | nil => cases fuel <;> rfl
  | cons e more => rw [chunks_two_cons, foldr_prepend_chunks]

/-- The chunks of a content that starts with a character of its own. -/
theorem joined_char (fuel : Nat) (d : Char) (hrest : ∀ high more, rest ≠ '-' :: high :: more) :
    joined fuel 1 (d :: rest) = prepend d (joined fuel 1 rest) := by
  cases rest with
  | nil => cases fuel <;> rfl
  | cons e more =>
    by_cases he : e = '-'
    · -- a hyphen at the end
      cases more with
      | nil =>
        subst he
        cases fuel <;> rfl
      | cons high more => exact absurd (he ▸ rfl) (hrest high more)
    · rw [joined, chunks_cons_of_ne fuel d he, foldr_prepend_chunks]

/-- **Chunks and ranges hold what the content names.** -/
theorem holds_joined (fuel : Nat) (content : List Char) (h : content.length ≤ fuel) :
    Holds (joined fuel 1 content) content := by
  match content with
  | [] =>
    rw [joined_nil]
    exact holds_nil
  | d :: rest =>
    by_cases hrange : ∃ high more, rest = '-' :: high :: more
    · obtain ⟨high, more, hrest⟩ := hrange
      obtain ⟨fuel, rfl⟩ := Nat.exists_eq_add_one.mpr (Nat.zero_lt_of_lt h)
      rw [hrest] at h ⊢
      simp only [List.length_cons] at h
      rw [joined_range]
      exact (holds_joined fuel more (by omega)).range d high
    · have hrest : ∀ high more, rest ≠ '-' :: high :: more := fun high more heq =>
        hrange ⟨high, more, heq⟩
      rw [joined_char fuel d hrest]
      exact (holds_joined fuel rest (Nat.le_of_succ_le h)).prepend d hrest
termination_by content.length
decreasing_by
  · simp only [hrest, List.length_cons]
    omega
  · exact Nat.lt_succ_self _

/-- **Brackets stand for the characters that their set holds.** -/
theorem contains_bracketSet_iff : (bracketSet content).contains c = true ↔ StandsFor content c := by
  have hnamed {content : List Char} (hmark : content.head? ≠ some '!') :
      bracketSet content = partsSet (joined content.length 1 content) := by
    unfold bracketSet
    split
    next negated chars hsplit =>
    split at hsplit
    · exact absurd rfl hmark
    · obtain ⟨rfl, rfl⟩ := Prod.mk.inj hsplit
      rfl
  by_cases hmark : content.head? = some '!'
  · obtain ⟨listed, rfl⟩ := List.head?_eq_some_iff.mp hmark
    have hothers : bracketSet ('!' :: listed) =
        .not (partsSet (joined listed.length 1 listed)) := rfl
    rw [hothers, CharSet.contains, Bool.not_eq_true', ← Bool.not_eq_true,
      (holds_joined _ listed (Nat.le_refl _)).contains]
    constructor
    · exact .others
    · intro h
      cases h with
      | named hne => exact absurd rfl hne
      | others hnames => exact hnames
  · rw [hnamed hmark, (holds_joined _ content (Nat.le_refl _)).contains]
    constructor
    · exact .named hmark
    · intro h
      cases h with
      | named _ hnames => exact hnames
      | others => exact absurd rfl hmark

end sets

/-! ## Matching -/

/-- The suffixes of a text are its backs. -/
theorem mem_suffixes {text suffix : List Char} :
    suffix ∈ suffixes text ↔ ∃ front, text = front ++ suffix := by
  induction text with
  | nil =>
    simp [suffixes]
  | cons c text ih =>
    rw [suffixes, List.mem_cons, ih]
    constructor
    · rintro (rfl | ⟨front, rfl⟩)
      · exact ⟨[], rfl⟩
      · exact ⟨c :: front, rfl⟩
    · rintro ⟨_ | ⟨d, front⟩, h⟩
      · exact .inl h.symm
      · exact .inr ⟨front, (List.cons.inj h).2⟩

/-- A star takes any front of the text. -/
theorem matchesAll_many {rest : List Wild} {text : List Char} :
    matchesAll (.many :: rest) text = true ↔
      ∃ front back, text = front ++ back ∧ matchesAll rest back = true := by
  rw [matchesAll, List.any_eq_true]
  constructor
  · rintro ⟨back, hback, h⟩
    obtain ⟨front, heq⟩ := mem_suffixes.mp hback
    exact ⟨front, back, heq, h⟩
  · rintro ⟨front, back, heq, h⟩
    exact ⟨back, mem_suffixes.mpr ⟨front, heq⟩, h⟩

/-- A set takes one character that it holds. -/
theorem matchesAll_single {set : CharSet} {rest : List Wild} {text : List Char} :
    matchesAll (.single set :: rest) text = true ↔
      ∃ c back, text = c :: back ∧ set.contains c = true ∧ matchesAll rest back = true := by
  cases text with
  | nil => simp [matchesAll]
  | cons c text => simp [matchesAll]

/-- A star stands for any front of a text. -/
theorem denotes_many {wildcard text : List Char} : Denotes ('*' :: wildcard) text ↔
    ∃ front back, text = front ++ back ∧ Denotes wildcard back := by
  constructor
  · intro h
    cases h with
    | many front hback => exact ⟨front, _, rfl, hback⟩
    | char hc => exact absurd rfl hc
  · rintro ⟨front, back, rfl, hback⟩
    exact .many front hback

/-- A question mark stands for any one character. -/
theorem denotes_any {wildcard text : List Char} : Denotes ('?' :: wildcard) text ↔
    ∃ c back, text = c :: back ∧ Denotes wildcard back := by
  constructor
  · intro h
    cases h with
    | any c hback => exact ⟨c, _, rfl, hback⟩
    | char _ hc => exact absurd rfl hc
  · rintro ⟨c, back, rfl, hback⟩
    exact .any c hback

/-- A bracket stands for one of the characters that its content stands for. -/
theorem denotes_set {content wildcard text : List Char} (hset : IsSet content) :
    Denotes ('[' :: (content ++ ']' :: wildcard)) text ↔ ∃ c back, text = c :: back ∧
      StandsFor content c ∧ Denotes wildcard back := by
  constructor
  · intro h
    generalize hwhole : content ++ ']' :: wildcard = whole at h
    cases h with
    | @set content' _ back c hset' hc hback =>
      -- brackets are closed in one way only
      have hcut := takeBrackets?_append wildcard hset
      rw [hwhole, takeBrackets?_append _ hset'] at hcut
      obtain ⟨rfl, rfl⟩ := Prod.mk.inj (Option.some.inj hcut)
      exact ⟨c, back, rfl, hc, hback⟩
    | bracket hopen => exact absurd hwhole.symm (hopen content wildcard hset)
    | char _ _ hc => exact absurd rfl hc
  · rintro ⟨c, back, rfl, hc, hback⟩
    exact .set hset hc hback

/-- A bracket that is never closed stands for itself. -/
theorem denotes_bracket {wildcard text : List Char}
    (hopen : ∀ content rest, IsSet content → wildcard ≠ content ++ ']' :: rest) :
    Denotes ('[' :: wildcard) text ↔ ∃ back, text = '[' :: back ∧ Denotes wildcard back := by
  constructor
  · intro h
    cases h with
    | set hset => exact absurd rfl (hopen _ _ hset)
    | bracket _ hback => exact ⟨_, rfl, hback⟩
    | char _ _ hc => exact absurd rfl hc
  · rintro ⟨back, rfl, hback⟩
    exact .bracket hopen hback

/-- Any other character stands for itself. -/
theorem denotes_char {wildcard text : List Char} {c : Char} (hmany : c ≠ '*') (hany : c ≠ '?')
    (hbracket : c ≠ '[') :
    Denotes (c :: wildcard) text ↔ ∃ back, text = c :: back ∧ Denotes wildcard back := by
  constructor
  · intro h
    cases h with
    | many => exact absurd rfl hmany
    | any => exact absurd rfl hany
    | set => exact absurd rfl hbracket
    | bracket => exact absurd rfl hbracket
    | char _ _ _ hback => exact ⟨_, rfl, hback⟩
  · rintro ⟨back, rfl, hback⟩
    exact .char hmany hany hbracket hback

/-- A single character takes itself. -/
theorem matchesAll_one {d : Char} {rest : List Wild} {text : List Char} :
    matchesAll (.single (.one d) :: rest) text = true ↔
      ∃ back, text = d :: back ∧ matchesAll rest back = true := by
  rw [matchesAll_single]
  constructor
  · rintro ⟨c, back, rfl, hc, hback⟩
    exact ⟨back, congrArg (· :: back) (beq_iff_eq.mp hc), hback⟩
  · rintro ⟨back, rfl, hback⟩
    exact ⟨d, back, rfl, beq_self_eq_true d, hback⟩

/-- Cut into enough pieces, a wildcard matches the texts that it stands for. -/
theorem matchesAll_pieces {fuel : Nat} {wildcard : List Char} (h : wildcard.length < fuel)
    (text : List Char) : matchesAll (pieces fuel wildcard) text = true ↔ Denotes wildcard text := by
  -- every piece takes a character of the wildcard, so the fuel outlasts it
  induction fuel generalizing wildcard text with
  | zero => exact absurd h (Nat.not_lt_zero _)
  | succ fuel ih =>
    cases wildcard with
    | nil =>
      rw [pieces, matchesAll, List.isEmpty_iff]
      constructor
      · rintro rfl
        exact .nil
      · rintro ⟨⟩
        rfl
    | cons c wildcard =>
      rw [List.length_cons, Nat.add_lt_add_iff_right] at h
      unfold pieces
      by_cases hmany : c = '*'
      · rw [if_pos (beq_iff_eq.mpr hmany), matchesAll_many, hmany, denotes_many]
        simp only [ih h]
      rw [if_neg (mt beq_iff_eq.mp hmany)]
      by_cases hany : c = '?'
      · rw [if_pos (beq_iff_eq.mpr hany), matchesAll_single, hany, denotes_any]
        simp only [ih h, CharSet.contains, Bool.not_false, true_and]
      rw [if_neg (mt beq_iff_eq.mp hany)]
      by_cases hbracket : c = '['
      · rw [if_pos (beq_iff_eq.mpr hbracket), hbracket]
        split
        · next content rest htake =>
          obtain ⟨hset, rfl⟩ := takeBrackets?_eq_some.mp htake
          have hrest : rest.length < fuel := by
            rw [List.length_append, List.length_cons] at h
            omega
          rw [matchesAll_single, denotes_set hset]
          simp only [ih hrest, contains_bracketSet_iff]
        · next htake =>
          have hopen : ∀ content rest, IsSet content → wildcard ≠ content ++ ']' :: rest := by
            intro content rest hset heq
            rw [heq, takeBrackets?_append rest hset] at htake
            cases htake
          rw [matchesAll_one, denotes_bracket hopen]
          simp only [ih h]
      · rw [if_neg (mt beq_iff_eq.mp hbracket), matchesAll_one, denotes_char hmany hany hbracket]
        simp only [ih h]

/-- **A name matches a wildcard exactly if the wildcard stands for it.** -/
theorem matchesName_iff (wildcard name : String) :
    matchesName wildcard name = true ↔ Denotes wildcard.toList name.toList :=
  matchesAll_pieces (Nat.lt_succ_self _) name.toList

end PhpAudit.Wildcard
