import PhpAudit.Proofs.Text.Encoding

/-!
# What the decoder decodes

`Replaces` says when a byte string reads as a text, and does not mention the decoder: the text is
made of the characters whose bytes follow one another in it, with one U+FFFD for each maximal
ill-formed part. A part is maximal when no character can be read where it starts, when it is one
byte or the beginning of a character, and when no longer piece of the input from there is the
beginning of one.

`replaces_iff` is the law: a byte string reads as the text that the decoder writes, and as no
other. The invariant behind it is `Begun`: inside a sequence, the state of the decoder describes the
characters that begin with the bytes of the sequence, no fewer and no more. One byte keeps it
(`first_means`, `next_means`), and `replaces_decodeFrom` carries it through the input.
-/

namespace PhpAudit.Text.Utf8

/-! ## Sequences that have been begun -/

/-- The bytes `p` begin some characters, and the state says which: those whose code point has the
bits read so far above its last `after + 1` groups of six, and whose next byte lies in the range.
Every such code point is one of a character. -/
structure Begun (p : List UInt8) (bits after : Nat) (low high : UInt8) : Prop where
  ne_nil : p ≠ []
  bounds : 0x80 ≤ low.toNat ∧ low.toNat ≤ high.toNat ∧ high.toNat ≤ 0xBF
  of_begins : ∀ c : Char, p <+: encodeChar c →
    encodeChar c = p ++ continuations c.toNat (after + 1) ∧ c.toNat / 64 ^ (after + 1) = bits ∧
      low.toNat ≤ (continuation c.toNat after).toNat ∧
      (continuation c.toNat after).toNat ≤ high.toNat
  to_char : ∀ n : Nat, n / 64 ^ (after + 1) = bits →
    low.toNat ≤ (continuation n after).toNat → (continuation n after).toNat ≤ high.toNat →
      ∃ c : Char, c.toNat = n ∧ encodeChar c = p ++ continuations n (after + 1)

/-- A first byte begins the characters that the ranges of code points give it. -/
theorem Begun.of_lead {b : UInt8} {bits after : Nat} {low high : UInt8}
    (hbounds : 0x80 ≤ low.toNat ∧ low.toNat ≤ high.toNat ∧ high.toNat ≤ 0xBF)
    (hfollowing : ∀ n : Nat, lead n = b.toNat → following n = after + 1)
    (hlead : ∀ n : Nat, n.isValidChar ∧ lead n = b.toNat ↔
      n / 64 ^ (after + 1) = bits ∧ low.toNat ≤ 0x80 + n / 64 ^ after % 64 ∧
        0x80 + n / 64 ^ after % 64 ≤ high.toNat) :
    Begun [b] bits after low high where
  ne_nil := List.cons_ne_nil _ _
  bounds := hbounds
  of_begins c hc := by
    have hb := singleton_prefix_encodeChar.mp hc
    rw [toNat_continuation]
    refine ⟨?_, (hlead _).mp ⟨c.valid, hb⟩⟩
    rw [encodeChar_eq, hfollowing _ hb, hb]
    simp only [Nat.toUInt8, UInt8.ofNat_toNat, List.singleton_append]
  to_char n hbits hlow hhigh := by
    rw [toNat_continuation] at hlow hhigh
    obtain ⟨hvalid, hb⟩ := (hlead n).mpr ⟨hbits, hlow, hhigh⟩
    have hn := toNat_ofNat hvalid
    refine ⟨Char.ofNat n, hn, ?_⟩
    rw [encodeChar_eq, hn, hfollowing _ hb, hb]
    simp only [Nat.toUInt8, UInt8.ofNat_toNat, List.singleton_append]

/-- A lead of two bytes begins a sequence. -/
theorem Begun.two {b : UInt8} (h : 0xC2 ≤ b.toNat) (h' : b.toNat < 0xE0) :
    Begun [b] (b.toNat - 0xC0) 0 0x80 0xBF := by
  apply Begun.of_lead
  · decide
  · intro n hn
    rw [lead_eq_two (by omega) h'] at hn
    exact following_eq_one (by omega) (by omega)
  · intro n
    rw [lead_eq_two (by omega) h']
    simp only [Nat.isValidChar, UInt8.reduceToNat, Nat.reducePow, Nat.reduceAdd, Nat.pow_zero]
    omega

/-- A first byte of three: the first and the last of their second bytes leave out the code points of
two bytes and the surrogates. -/
theorem Begun.three {b : UInt8} {bits : Nat} {low high : UInt8}
    (hb : 0xE0 ≤ b.toNat) (hb' : b.toNat < 0xF0) (hbits : bits = b.toNat - 0xE0)
    (hbounds : 0x80 ≤ low.toNat ∧ low.toNat ≤ high.toNat ∧ high.toNat ≤ 0xBF)
    (hlow : low.toNat = if bits = 0 then 0xA0 else 0x80)
    (hhigh : high.toNat = if bits = 0xD then 0x9F else 0xBF) :
    Begun [b] bits 1 low high := by
  apply Begun.of_lead hbounds
  · intro n hn
    rw [lead_eq_three hb hb'] at hn
    exact following_eq_two (by omega) (by omega)
  · intro n
    rw [lead_eq_three hb hb', hlow, hhigh]
    simp only [Nat.isValidChar, Nat.reducePow, Nat.reduceAdd]
    split <;> split <;> omega

/-- A first byte of four: the first and the last of their second bytes leave out the code points of
three bytes and those above the last. -/
theorem Begun.four {b : UInt8} {bits : Nat} {low high : UInt8}
    (hb : 0xF0 ≤ b.toNat) (hb' : b.toNat ≤ 0xF4) (hbits : bits = b.toNat - 0xF0)
    (hbounds : 0x80 ≤ low.toNat ∧ low.toNat ≤ high.toNat ∧ high.toNat ≤ 0xBF)
    (hlow : low.toNat = if bits = 0 then 0x90 else 0x80)
    (hhigh : high.toNat = if bits = 4 then 0x8F else 0xBF) :
    Begun [b] bits 2 low high := by
  apply Begun.of_lead hbounds
  · intro n hn
    rw [lead_eq_four hb] at hn
    exact following_eq_three (by omega)
  · intro n
    rw [lead_eq_four hb, hlow, hhigh]
    simp only [Nat.isValidChar, Nat.reducePow, Nat.reduceAdd]
    split <;> split <;> omega

/-- A sequence that is begun can be completed to a character. -/
theorem Begun.exists_char {p : List UInt8} {bits after : Nat} {low high : UInt8}
    (h : Begun p bits after low high) :
    ∃ c : Char, encodeChar c = p ++ continuations c.toNat (after + 1) := by
  have hbounds := h.bounds
  have hdiv : (bits * 64 + (low.toNat - 0x80)) * 64 ^ after / 64 ^ after =
      bits * 64 + (low.toNat - 0x80) := Nat.mul_div_cancel _ (Nat.pow_pos (by decide))
  obtain ⟨c, hc, hp⟩ := h.to_char ((bits * 64 + (low.toNat - 0x80)) * 64 ^ after)
    (by rw [Nat.pow_succ, ← Nat.div_div_eq_div_mul, hdiv]; omega)
    (by rw [toNat_continuation, hdiv]; omega) (by rw [toNat_continuation, hdiv]; omega)
  exact ⟨c, hc ▸ hp⟩

/-- A sequence that is begun is the front of the bytes of a character. -/
theorem Begun.begins {p : List UInt8} {bits after : Nat} {low high : UInt8}
    (h : Begun p bits after low high) : ∃ c, p <+: encodeChar c := by
  obtain ⟨c, hc⟩ := h.exists_char
  exact ⟨c, hc ▸ List.prefix_append _ _⟩

/-- A sequence that has been begun holds no character yet. -/
theorem Begun.unread {p : List UInt8} {bits after : Nat} {low high : UInt8}
    (h : Begun p bits after low high) (c : Char) : ¬ encodeChar c <+: p := by
  intro hc
  obtain ⟨d, hd⟩ := h.exists_char
  have hcd := encodeChar_prefix_inj (hc.trans (hd ▸ List.prefix_append _ _))
  have hlength := hc.length_le
  rw [hcd, hd, List.length_append, length_continuations] at hlength
  omega

/-! ## What one byte does -/

/-- What a reading says about the bytes `p` that led to it. -/
def Reading.Means (p : List UInt8) : Reading → Prop
  | .complete c => encodeChar c = p
  | .partway .idle => False
  | .partway (.inside bits after low high) => Begun p bits after low high
  | .broken => ∀ c, ¬ p <+: encodeChar c

/-- A byte between characters is read for what it begins. -/
theorem first_means (b : UInt8) : (first b).Means [b] := by
  have hb := b.toNat_lt
  unfold first
  simp only [UInt8.lt_iff_toNat_lt, ← UInt8.toNat_inj, UInt8.reduceToNat]
  split
  · next h =>
    change encodeChar _ = _
    rw [encodeChar_eq, toNat_ofNat (.inl (by omega))]
    simp only [lead, following, h, if_true, continuations, Nat.toUInt8, UInt8.ofNat_toNat]
  split
  -- a continuation byte, or a lead of an overlong sequence of two bytes
  · intro c hc
    have := lead_range (char_lt c)
    rw [singleton_prefix_encodeChar.mp hc] at this
    omega
  split
  · exact .two (by omega) (by omega)
  split
  · exact .three (by omega) (by omega) (by omega) (by decide) (by decide) (by decide)
  split
  · exact .three (by omega) (by omega) (by omega) (by decide) (by decide) (by decide)
  split
  · refine .three (by omega) (by omega) rfl (by decide) ?_ ?_
    · rw [if_neg (by omega)]
      rfl
    · rw [if_neg (by omega)]
      rfl
  split
  · exact .four (by omega) (by omega) (by omega) (by decide) (by decide) (by decide)
  split
  · refine .four (by omega) (by omega) rfl (by decide) ?_ ?_
    · rw [if_neg (by omega)]
      rfl
    · rw [if_neg (by omega)]
      rfl
  split
  · exact .four (by omega) (by omega) (by omega) (by decide) (by decide) (by decide)
  -- a lead beyond that of the last code point
  · intro c hc
    have := lead_range (char_lt c)
    rw [singleton_prefix_encodeChar.mp hc] at this
    omega

/-- A byte inside a sequence is read for what it continues. -/
theorem next_means {p : List UInt8} {bits after : Nat} {low high : UInt8}
    (h : Begun p bits after low high) (b : UInt8) :
    (next bits after low high b).Means (p ++ [b]) := by
  have hbounds := h.bounds
  unfold next
  simp only [UInt8.le_iff_toNat_le]
  split
  · next hb =>
    cases after with
    | zero =>
      obtain ⟨c, hc, hp⟩ := h.to_char (bits * 64 + (b.toNat - 0x80)) (by omega)
        (by rw [toNat_continuation]; omega) (by rw [toNat_continuation]; omega)
      change encodeChar (Char.ofNat _) = _
      have hlast : continuation (bits * 64 + (b.toNat - 0x80)) 0 = b := by
        rw [← UInt8.toNat_inj, toNat_continuation]
        omega
      rw [← hc, Char.ofNat_toNat, hp, continuations, continuations, hlast]
    | succ after =>
      -- the group that `b` holds goes from the code point's rest to its bits
      refine ⟨List.concat_ne_nil _ _, by decide, fun c hc => ?_, fun n hn _ _ => ?_⟩
      · obtain ⟨hp, hbits, -⟩ := h.of_begins c ((List.prefix_append p [b]).trans hc)
        rw [hp, List.prefix_append_right_inj, continuations, List.cons_prefix_cons] at hc
        have hnext := congrArg UInt8.toNat hc.1
        have hsplit := div_pow_succ c.toNat (after + 1)
        rw [toNat_continuation] at hnext
        rw [toNat_continuation]
        refine ⟨by rw [hp, continuations, ← hc.1, List.append_assoc, List.singleton_append], ?_, ?_⟩
        · omega
        · have := Nat.mod_lt (c.toNat / 64 ^ after) (show 0 < 64 by decide)
          simp only [UInt8.reduceToNat]
          omega
      · have hsplit := div_pow_succ n (after + 1)
        obtain ⟨c, hc, hp⟩ := h.to_char n (by omega) (by rw [toNat_continuation]; omega)
          (by rw [toNat_continuation]; omega)
        have hnext : continuation n (after + 1) = b := by
          rw [← UInt8.toNat_inj, toNat_continuation]
          omega
        refine ⟨c, hc, ?_⟩
        rw [hp, continuations, hnext, List.append_assoc, List.singleton_append]
  · next hb =>
    intro c hc
    obtain ⟨hp, -, hlow, hhigh⟩ := h.of_begins c ((List.prefix_append p [b]).trans hc)
    rw [hp, List.prefix_append_right_inj, continuations, List.cons_prefix_cons] at hc
    rw [← hc.1] at hlow hhigh
    exact hb ⟨hlow, hhigh⟩

/-! ## Texts with replacements -/

/-- The bytes `part` in front of `rest` are a maximal ill-formed part: no character can be read
there; they are one byte or begin a character; and no longer piece of the input does. -/
structure IsMaximalPart (part rest : List UInt8) : Prop where
  ne_nil : part ≠ []
  unreadable : ∀ c, ¬ encodeChar c <+: part ++ rest
  begins : part.length = 1 ∨ ∃ c, part <+: encodeChar c
  maximal : ∀ longer, longer <+: part ++ rest → part.length < longer.length →
    ∀ c, ¬ longer <+: encodeChar c

/-- A byte string reads as a text: its characters one by one, with U+FFFD for each maximal
ill-formed part between them. -/
inductive Replaces : List UInt8 → List Char → Prop where
  | nil : Replaces [] []
  | char {c : Char} {rest : List UInt8} {text : List Char} :
    Replaces rest text → Replaces (encodeChar c ++ rest) (c :: text)
  | part {part rest : List UInt8} {text : List Char} :
    IsMaximalPart part rest → Replaces rest text → Replaces (part ++ rest) (replacement :: text)

/-- A piece that holds no character, and begins none together with the byte behind it, is maximal
if it is one byte or the beginning of a character. -/
theorem IsMaximalPart.of_next {p rest : List UInt8} (hne : p ≠ [])
    (hbegins : p.length = 1 ∨ ∃ c, p <+: encodeChar c) (hunread : ∀ c, ¬ encodeChar c <+: p)
    (hnext : ∀ b ∈ rest.head?, ∀ c, ¬ p ++ [b] <+: encodeChar c) : IsMaximalPart p rest where
  ne_nil := hne
  unreadable c hc := by
    cases rest with
    | nil =>
      rw [List.append_nil] at hc
      exact hunread c hc
    | cons b rest =>
      have hp : p ++ [b] <+: p ++ b :: rest :=
        (List.prefix_append_right_inj p).mpr (List.prefix_append [b] rest)
      rcases Nat.lt_or_ge p.length (encodeChar c).length with hlength | hlength
      · apply hnext b rfl c
        apply List.prefix_of_prefix_length_le hp hc
        rw [List.length_append, List.length_singleton]
        exact hlength
      · exact hunread c (List.prefix_of_prefix_length_le hc (List.prefix_append p _) hlength)
  begins := hbegins
  maximal longer hlonger hlength c hc := by
    cases rest with
    | nil =>
      have := hlonger.length_le
      rw [List.append_nil] at this
      omega
    | cons b rest =>
      have hp : p ++ [b] <+: p ++ b :: rest :=
        (List.prefix_append_right_inj p).mpr (List.prefix_append [b] rest)
      have hshort : (p ++ [b]).length ≤ longer.length := by
        rw [List.length_append, List.length_singleton]
        exact hlength
      exact hnext b rfl c ((List.prefix_of_prefix_length_le hp hlonger hshort).trans hc)

/-! ## What the decoder writes -/

/-- What the decoder has read since the last character: nothing between characters. -/
def State.Holds (p : List UInt8) : State → Prop
  | .idle => p = []
  | .inside bits after low high => Begun p bits after low high

/-- A byte between characters is decoded, replaced or begins a sequence. -/
theorem replaces_stepIdle {b : UInt8} {bytes : List UInt8}
    (ih : ∀ (p : List UInt8) (state : State), state.Holds p →
      Replaces (p ++ bytes) (decodeFrom state bytes)) :
    Replaces (b :: bytes) ((stepIdle b).1 ++ decodeFrom (stepIdle b).2 bytes) := by
  have hmeans := first_means b
  unfold stepIdle
  cases hfirst : first b with
  | complete c =>
    rw [hfirst] at hmeans
    have hchar := Replaces.char (c := c) (ih [] .idle rfl)
    rw [show encodeChar c = [b] from hmeans] at hchar
    exact hchar
  | partway state =>
    rw [hfirst] at hmeans
    cases state with
    | idle => exact hmeans.elim
    | inside => exact ih [b] _ hmeans
  | broken =>
    rw [hfirst] at hmeans
    have hbroken : ∀ c, ¬ [b] <+: encodeChar c := hmeans
    have hpart : IsMaximalPart [b] bytes := by
      refine .of_next (List.cons_ne_nil _ _) (.inl rfl) ?_ ?_
      · intro c hc
        rcases List.prefix_cons_iff.mp hc with hnil | ⟨rest, hcons, hrest⟩
        · exact encodeChar_ne_nil c hnil
        · rw [List.prefix_nil.mp hrest] at hcons
          exact hbroken c (hcons ▸ List.prefix_refl _)
      · intro b' _ c hc
        exact hbroken c ((List.prefix_append [b] [b']).trans hc)
    exact .part hpart (ih [] .idle rfl)

/-- From every state on, the decoder writes what the bytes that led to it and the rest read as. -/
theorem replaces_decodeFrom {p : List UInt8} {state : State} (h : state.Holds p)
    (bytes : List UInt8) : Replaces (p ++ bytes) (decodeFrom state bytes) := by
  -- on the bytes to come, for every state and the bytes that led to it
  induction bytes generalizing p state with
  | nil =>
    cases state with
    | idle =>
      rw [show p = [] from h]
      exact .nil
    | inside bits after low high =>
      have hbegun : Begun p bits after low high := h
      exact .part (.of_next hbegun.ne_nil (.inr hbegun.begins)
        hbegun.unread (by simp only [List.head?_nil, Option.mem_def, reduceCtorEq,
          false_implies, implies_true])) .nil
  | cons b bytes ih =>
    cases state with
    | idle =>
      rw [show p = [] from h]
      exact replaces_stepIdle fun p state => ih
    | inside bits after low high =>
      have hbegun : Begun p bits after low high := h
      have hmeans := next_means hbegun b
      have happend : p ++ b :: bytes = (p ++ [b]) ++ bytes := by
        rw [List.append_assoc, List.singleton_append]
      have hidle : State.idle.Holds [] := rfl
      simp only [decodeFrom, step]
      cases hnext : next bits after low high b with
      | complete c =>
        rw [hnext] at hmeans
        rw [happend, ← show encodeChar c = p ++ [b] from hmeans]
        exact .char (ih hidle)
      | partway state =>
        rw [hnext] at hmeans
        cases state with
        | idle => exact hmeans.elim
        | inside => exact happend ▸ ih hmeans
      | broken =>
        rw [hnext] at hmeans
        refine .part (.of_next hbegun.ne_nil (.inr hbegun.begins)
          hbegun.unread ?_) (replaces_stepIdle fun p state => ih)
        intro b' hb'
        cases hb'
        exact hmeans

/-- Decoding replaces the bytes as it should. -/
theorem replaces_decode (bytes : List UInt8) : Replaces bytes (decode bytes) := by
  have hidle : State.idle.Holds [] := rfl
  exact replaces_decodeFrom hidle bytes

/-! ## One text only -/

/-- Replacing starts with nothing, with a character or with a maximal broken part. -/
theorem Replaces.eq_nil_or {bytes : List UInt8} {text : List Char} (h : Replaces bytes text) :
    (bytes = [] ∧ text = []) ∨
    (∃ c rest text', bytes = encodeChar c ++ rest ∧ text = c :: text' ∧ Replaces rest text') ∨
    (∃ part rest text', bytes = part ++ rest ∧ text = replacement :: text' ∧
      IsMaximalPart part rest ∧ Replaces rest text') := by
  cases h with
  | nil => exact .inl ⟨rfl, rfl⟩
  | char h => exact .inr (.inl ⟨_, _, _, rfl, rfl, h⟩)
  | part hpart h => exact .inr (.inr ⟨_, _, _, rfl, rfl, hpart, h⟩)

/-- Of two maximal ill-formed parts of one input, neither is longer. -/
theorem IsMaximalPart.length_le {p q rest rest' : List UInt8} (hp : IsMaximalPart p rest)
    (hq : IsMaximalPart q rest') (h : p ++ rest = q ++ rest') : q.length ≤ p.length := by
  rcases Nat.lt_or_ge p.length q.length with hlt | hle
  · rcases hq.begins with hone | ⟨c, hc⟩
    · have := List.length_pos_iff.mpr hp.ne_nil
      omega
    · exact absurd hc (hp.maximal q (h ▸ List.prefix_append q rest') hlt c)
  · exact hle

/-- Bytes are replaced in one way only. -/
theorem Replaces.unique {bytes : List UInt8} {text text' : List Char} (h : Replaces bytes text)
    (h' : Replaces bytes text') : text = text' := by
  induction h generalizing text' with
  | nil =>
    rcases h'.eq_nil_or with ⟨-, rfl⟩ | ⟨c, rest, _, hnil, -⟩ | ⟨part, rest, _, hnil, -, hpart, -⟩
    · rfl
    · exact absurd (List.append_eq_nil_iff.mp hnil.symm).1 (encodeChar_ne_nil c)
    · exact absurd (List.append_eq_nil_iff.mp hnil.symm).1 hpart.ne_nil
  | @char c rest text _ ih =>
    rcases h'.eq_nil_or with ⟨hnil, -⟩ | ⟨d, rest', _, heq, rfl, hrest⟩ |
      ⟨part, rest', _, heq, -, hpart, -⟩
    · exact absurd (List.append_eq_nil_iff.mp hnil).1 (encodeChar_ne_nil c)
    · have hcd : c = d := by
        rcases List.prefix_or_prefix_of_prefix (List.prefix_append (encodeChar c) rest)
          (heq ▸ List.prefix_append (encodeChar d) rest') with hc | hd
        · exact encodeChar_prefix_inj hc
        · exact (encodeChar_prefix_inj hd).symm
      subst hcd
      rw [ih (List.append_cancel_left heq ▸ hrest)]
    · exact absurd (heq ▸ List.prefix_append (encodeChar c) rest) (hpart.unreadable c)
  | @part part rest text hpart _ ih =>
    rcases h'.eq_nil_or with ⟨hnil, -⟩ | ⟨d, rest', _, heq, -, -⟩ |
      ⟨part', rest', _, heq, rfl, hpart', hrest⟩
    · exact absurd (List.append_eq_nil_iff.mp hnil).1 hpart.ne_nil
    · exact absurd (heq ▸ List.prefix_append (encodeChar d) rest') (hpart.unreadable d)
    · have hlength := Nat.le_antisymm (hpart'.length_le hpart heq.symm) (hpart.length_le hpart' heq)
      obtain ⟨-, rfl⟩ := List.append_inj heq hlength
      rw [ih hrest]

/-- **What the decoder reads.** A byte string reads as the text that the decoder writes, and as no
other. -/
theorem replaces_iff {bytes : List UInt8} {text : List Char} :
    Replaces bytes text ↔ text = decode bytes := by
  constructor
  · intro h
    exact h.unique (replaces_decode bytes)
  · rintro rfl
    exact replaces_decode bytes

end PhpAudit.Text.Utf8
