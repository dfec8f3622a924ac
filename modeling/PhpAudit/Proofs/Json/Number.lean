import Mathlib.Data.List.TakeDrop
import Mathlib.Data.List.TakeWhile
import PhpAudit.Json.Reader

/-!
# Numbers in JSON

The grammar of numbers, and what the reader makes of them. A reader of numbers stops where the text
cannot go on with the number; so a number is taken whole, and nothing more is taken, as long as what
follows is nothing that a number could go on with (`number_append`).
-/

namespace PhpAudit.Json

/-! ## The grammar -/

/-- Digits, of which there is at least one. -/
structure AreDigits (chars : List Char) : Prop where
  ne_nil : chars ≠ []
  isDigit : ∀ c ∈ chars, c.isDigit = true

/-- A whole part: digits without a zero in front of others. -/
structure IsWhole (chars : List Char) : Prop where
  areDigits : AreDigits chars
  eq_nil_of_zero : ∀ rest, chars = '0' :: rest → rest = []

/-- A fraction, which may be missing. -/
inductive IsFraction : List Char → Prop
  | missing : IsFraction []
  | places {digits : List Char} (hdigits : AreDigits digits) : IsFraction ('.' :: digits)

/-- An exponent, which may be missing. -/
inductive IsExponent : List Char → Prop
  | missing : IsExponent []
  | power {mark : Char} {sign digits : List Char} (hmark : mark = 'e' ∨ mark = 'E')
      (hsign : sign = [] ∨ sign = ['+'] ∨ sign = ['-']) (hdigits : AreDigits digits) :
      IsExponent (mark :: sign ++ digits)

/-- A number without a sign. -/
inductive IsMagnitude : List Char → Prop
  | parts {whole fraction exponent : List Char} (hwhole : IsWhole whole)
      (hfraction : IsFraction fraction) (hexponent : IsExponent exponent) :
      IsMagnitude (whole ++ fraction ++ exponent)

/-- A number. -/
inductive IsNumber : List Char → Prop
  | unsigned {chars : List Char} (hmagnitude : IsMagnitude chars) : IsNumber chars
  | negative {chars : List Char} (hmagnitude : IsMagnitude chars) : IsNumber ('-' :: chars)

/-! ## What follows -/

/-- The next character, if there is one, is not of some kind. -/
def NextIsNot (kind : Char → Bool) (text : List Char) : Prop := ∀ c ∈ text.head?, kind c = false

/-- Whether a number could go on with a character. -/
def continues (c : Char) : Bool := c.isDigit || c == '.' || c == 'e' || c == 'E'

variable {kind : Char → Bool} {chars rest : List Char}

theorem nextIsNot_nil : NextIsNot kind [] := nofun

/-- A character of another kind does not continue a token. -/
theorem nextIsNot_cons {c : Char} (h : kind c = false) : NextIsNot kind (c :: rest) := by
  rintro _ ⟨⟩
  exact h

/-- What comes next is at the front of the first part, or of the rest if the first part is empty. -/
theorem NextIsNot.append (hchars : NextIsNot kind chars) (hrest : NextIsNot kind rest) :
    NextIsNot kind (chars ++ rest) := by
  cases chars with
  | nil => exact hrest
  | cons c chars => exact nextIsNot_cons (hchars c rfl)

/-- What is of none of several kinds is not of one of them. -/
theorem NextIsNot.mono {other : Char → Bool} (h : NextIsNot kind rest)
    (hkind : ∀ c, other c = true → kind c = true) : NextIsNot other rest := by
  intro c hc
  rw [← Bool.not_eq_true]
  exact fun hother => Bool.false_ne_true ((h c hc).symm.trans (hkind c hother))

/-- A fraction does not start with a digit. -/
theorem IsFraction.nextIsNot (h : IsFraction chars) : NextIsNot Char.isDigit chars := by
  cases h with
  | missing => exact nextIsNot_nil
  | places => exact nextIsNot_cons rfl

/-- An exponent starts neither with a digit nor with a point. -/
theorem IsExponent.nextIsNot (h : IsExponent chars) :
    NextIsNot (fun c => c.isDigit || c == '.') chars := by
  cases h with
  | missing => exact nextIsNot_nil
  | power hmark => rcases hmark with rfl | rfl <;> exact nextIsNot_cons rfl

/-! ## Reading -/

/-- Digits end where the next character is none. -/
theorem span_append (h : ∀ c ∈ chars, c.isDigit = true) (hrest : NextIsNot Char.isDigit rest) :
    (chars ++ rest).span Char.isDigit = (chars, rest) := by
  have htake : rest.takeWhile Char.isDigit = [] ∧ rest.dropWhile Char.isDigit = rest := by
    cases rest with
    | nil => exact ⟨rfl, rfl⟩
    | cons c rest => simp [hrest c rfl]
  rw [List.span_eq_takeWhile_dropWhile, List.takeWhile_append_of_pos h,
    List.dropWhile_append_of_pos h, htake.1, htake.2, List.append_nil]

/-- A run of digits is read to its end. -/
theorem digits1_append (h : AreDigits chars) (hrest : NextIsNot Char.isDigit rest) :
    digits1 (chars ++ rest) = some (chars, rest) := by
  have hspan := span_append h.isDigit hrest
  obtain ⟨c, chars, rfl⟩ := List.exists_cons_of_ne_nil h.ne_nil
  rw [digits1, hspan]

/-- A whole part is read to its end. -/
theorem wholePart_append (h : IsWhole chars) (hrest : NextIsNot Char.isDigit rest) :
    wholePart (chars ++ rest) = some (chars, rest) := by
  by_cases hzero : ∃ more, chars = '0' :: more
  · obtain ⟨more, rfl⟩ := hzero
    rw [h.eq_nil_of_zero more rfl]
    rfl
  · obtain ⟨c, more, rfl⟩ := List.exists_cons_of_ne_nil h.areDigits.ne_nil
    rw [← digits1_append h.areDigits hrest, wholePart]
    rintro text heq
    rw [List.cons_append, List.cons.injEq] at heq
    exact hzero ⟨more, by rw [heq.1]⟩

/-- A fraction is read to its end. -/
theorem fraction_append (h : IsFraction chars)
    (hrest : NextIsNot (fun c => c.isDigit || c == '.') rest) :
    fraction (chars ++ rest) = some (chars, rest) := by
  cases h with
  | missing =>
    rw [List.nil_append, fraction]
    rintro text rfl
    exact Bool.false_ne_true (hrest '.' rfl).symm
  | places hdigits =>
    have hdigit : NextIsNot Char.isDigit rest := hrest.mono fun c hc => by simp [hc]
    rw [List.cons_append, fraction, digits1_append hdigits hdigit]

/-- The sign of an exponent is split off its digits. -/
theorem exponentSign_append {sign : List Char} (h : sign = [] ∨ sign = ['+'] ∨ sign = ['-'])
    (hchars : AreDigits chars) :
    exponentSign (sign ++ (chars ++ rest)) = (sign, chars ++ rest) := by
  rcases h with rfl | rfl | rfl
  · obtain ⟨c, more, rfl⟩ := List.exists_cons_of_ne_nil hchars.ne_nil
    have hdigit := hchars.isDigit c List.mem_cons_self
    rw [List.nil_append, exponentSign]
    all_goals
      rintro text heq
      rw [List.cons_append, List.cons.injEq] at heq
      rw [heq.1] at hdigit
      exact absurd hdigit (by decide)
  · rfl
  · rfl

/-- An exponent is read to its end. -/
theorem exponent_append (h : IsExponent chars) (hrest : NextIsNot continues rest) :
    exponent (chars ++ rest) = some (chars, rest) := by
  cases h with
  | missing =>
    cases rest with
    | nil => rfl
    | cons c rest =>
      have hmark : (c == 'e' || c == 'E') = false := by
        have hc := hrest c rfl
        simp only [continues, Bool.or_eq_false_iff] at hc ⊢
        exact ⟨hc.1.2, hc.2⟩
      rw [List.nil_append, exponent, if_neg (by rw [hmark]; exact Bool.false_ne_true)]
  | @power mark sign digits hmark hsign hdigits =>
    have hdigit : NextIsNot Char.isDigit rest := hrest.mono fun c hc => by simp [continues, hc]
    have hmark : (mark == 'e' || mark == 'E') = true := by simpa using hmark
    rw [List.cons_append, List.cons_append, exponent, if_pos hmark, List.append_assoc,
      exponentSign_append hsign hdigits]
    simp only [digits1_append hdigits hdigit, List.cons_append]

/-- A number without a sign starts with a digit. -/
theorem IsMagnitude.head (h : IsMagnitude chars) :
    ∃ c more, chars = c :: more ∧ c.isDigit = true := by
  obtain ⟨hwhole, hfraction, hexponent⟩ := h
  obtain ⟨c, more, rfl⟩ := List.exists_cons_of_ne_nil hwhole.areDigits.ne_nil
  exact ⟨c, _, rfl, hwhole.areDigits.isDigit c List.mem_cons_self⟩

/-- A number starts with the sign or with a digit. -/
theorem IsNumber.head (h : IsNumber chars) :
    ∃ c more, chars = c :: more ∧ (c = '-' ∨ c.isDigit = true) := by
  cases h with
  | unsigned hmagnitude =>
    obtain ⟨c, more, hchars, hdigit⟩ := hmagnitude.head
    exact ⟨c, more, hchars, .inr hdigit⟩
  | negative => exact ⟨'-', _, rfl, .inl rfl⟩

/-- The parts of a number without a sign are taken one after another, behind the sign that was
taken before. -/
theorem parts_append (h : IsMagnitude chars) (hrest : NextIsNot continues rest)
    (sign : List Char) :
    (do
      let (whole, text) ← wholePart (chars ++ rest)
      let (fraction, text) ← fraction text
      let (exponent, text) ← exponent text
      return (sign ++ whole ++ fraction ++ exponent, text)) = some (sign ++ chars, rest) := by
  obtain @⟨whole, fraction, exponent, hwhole, hfraction, hexponent⟩ := h
  have hpoint : NextIsNot (fun c => c.isDigit || c == '.') (exponent ++ rest) :=
    hexponent.nextIsNot.append (hrest.mono fun c hc => by
      simp only [continues, hc, Bool.true_or])
  have hdigit : NextIsNot Char.isDigit (fraction ++ (exponent ++ rest)) :=
    hfraction.nextIsNot.append (hpoint.mono fun c hc => by simp [hc])
  simp only [List.append_assoc, wholePart_append hwhole hdigit, fraction_append hfraction hpoint,
    exponent_append hexponent hrest, Option.bind_eq_bind, Option.bind_some, Option.pure_def]

/-- A number is taken, and nothing that follows. -/
theorem number_append (h : IsNumber chars) (hrest : NextIsNot continues rest) :
    number (chars ++ rest) = some (chars, rest) := by
  cases h with
  | unsigned hmagnitude =>
    rw [number]
    · exact parts_append hmagnitude hrest []
    · obtain ⟨c, more, rfl, hdigit⟩ := hmagnitude.head
      rintro text heq
      rw [List.cons_append, List.cons.injEq] at heq
      rw [heq.1] at hdigit
      exact absurd hdigit (by decide)
  | negative hmagnitude => exact parts_append hmagnitude hrest ['-']

end PhpAudit.Json
