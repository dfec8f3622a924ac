import Mathlib.Algebra.Group.Nat.Defs
import Mathlib.Data.List.Infix
import PhpAudit.Text.Utf8

/-!
# Characters as bytes

The bytes of a character are a first byte and the continuation bytes that it asks for, six bits
each (`encodeChar_eq`). Which code points have a given first byte is an interval of them
(`lead_eq_two` and its neighbours); everything that is known of first bytes is read off those.

No character's bytes begin another's (`encodeChar_prefix_inj`), so that a byte string can be cut
into characters in one way only.
-/

namespace PhpAudit.Text.Utf8

/-- A valid code point is the code of its character. -/
theorem toNat_ofNat {n : Nat} (h : n.isValidChar) : (Char.ofNat n).toNat = n := by
  unfold Char.ofNat
  rw [dif_pos h]
  rfl

/-- Code points end at 0x10FFFF. -/
theorem char_lt (c : Char) : c.toNat < 0x110000 := by
  rcases c.valid with h | h
  · exact Nat.lt_trans h (by omega)
  · exact h.2

/-! ## Continuation bytes -/

/-- The six bits of a code point above its last `after` groups of six, as a continuation byte. -/
def continuation (n after : Nat) : UInt8 := (0x80 + n / 64 ^ after % 64).toUInt8

/-- The last `count` groups of six bits of a code point, as continuation bytes. -/
def continuations (n : Nat) : Nat → List UInt8
  | 0 => []
  | count + 1 => continuation n count :: continuations n count

/-- A continuation byte carries six bits above its mark. -/
theorem toNat_continuation (n after : Nat) :
    (continuation n after).toNat = 0x80 + n / 64 ^ after % 64 := by
  have : n / 64 ^ after % 64 < 64 := Nat.mod_lt _ (by omega)
  simp only [continuation, Nat.toUInt8, UInt8.toNat_ofNat']
  omega

theorem length_continuations (n count : Nat) : (continuations n count).length = count := by
  induction count with
  | zero => rfl
  | succ count ih => rw [continuations, List.length_cons, ih]

/-- Six bits are split off a number. -/
theorem div_pow_succ (n after : Nat) :
    n / 64 ^ after = n / 64 ^ (after + 1) * 64 + n / 64 ^ after % 64 := by
  rw [Nat.pow_succ, ← Nat.div_div_eq_div_mul]
  omega

/-- The last groups of six bits and what is above them are the whole code point. -/
theorem continuations_inj {n m count : Nat} (hbits : n / 64 ^ count = m / 64 ^ count)
    (h : continuations n count = continuations m count) : n = m := by
  induction count with
  | zero =>
    rw [Nat.pow_zero, Nat.div_one, Nat.div_one] at hbits
    exact hbits
  | succ count ih =>
    obtain ⟨hfirst, hrest⟩ := List.cons_eq_cons.mp h
    have hfirst := congrArg UInt8.toNat hfirst
    rw [toNat_continuation, toNat_continuation] at hfirst
    apply ih _ hrest
    rw [div_pow_succ n, div_pow_succ m, hbits]
    omega

/-! ## First bytes -/

/-- The value of the first byte of a code point. -/
def lead (n : Nat) : Nat :=
  if n < 0x80 then n
  else if n < 0x800 then 0xC0 + n / 64
  else if n < 0x10000 then 0xE0 + n / 4096
  else 0xF0 + n / 262144

/-- How many continuation bytes follow the first byte of a code point. -/
def following (n : Nat) : Nat :=
  if n < 0x80 then 0 else if n < 0x800 then 1 else if n < 0x10000 then 2 else 3

/-- One byte follows the lead below 0x800. -/
theorem following_eq_one {n : Nat} (h : 0x80 ≤ n) (h' : n < 0x800) : following n = 1 := by
  unfold following
  rw [if_neg (by omega), if_pos h']

/-- Two bytes follow the lead below 0x10000. -/
theorem following_eq_two {n : Nat} (h : 0x800 ≤ n) (h' : n < 0x10000) : following n = 2 := by
  unfold following
  rw [if_neg (by omega), if_neg (by omega), if_pos h']

/-- Three bytes follow the lead from 0x10000 on. -/
theorem following_eq_three {n : Nat} (h : 0x10000 ≤ n) : following n = 3 := by
  unfold following
  rw [if_neg (by omega), if_neg (by omega), if_neg (by omega)]

/-- A lead below 0x80 is the code point itself. -/
theorem lead_eq_one {n k : Nat} (h : k < 0x80) : lead n = k ↔ n = k := by
  unfold lead
  split
  · omega
  · split
    · omega
    · split <;> omega

/-- A lead below 0xE0 carries the high bits of two bytes. -/
theorem lead_eq_two {n k : Nat} (h : 0xC0 ≤ k) (h' : k < 0xE0) :
    lead n = k ↔ n / 64 = k - 0xC0 ∧ 0x80 ≤ n := by
  unfold lead
  split
  · omega
  · split
    · omega
    · split <;> omega

/-- A lead below 0xF0 carries the high bits of three bytes. -/
theorem lead_eq_three {n k : Nat} (h : 0xE0 ≤ k) (h' : k < 0xF0) :
    lead n = k ↔ n / 4096 = k - 0xE0 ∧ 0x800 ≤ n := by
  unfold lead
  split
  · omega
  · split
    · omega
    · split <;> omega

/-- A lead from 0xF0 on carries the high bits of four bytes. -/
theorem lead_eq_four {n k : Nat} (h : 0xF0 ≤ k) :
    lead n = k ↔ n / 262144 = k - 0xF0 ∧ 0x10000 ≤ n := by
  unfold lead
  split
  · omega
  · split
    · omega
    · split <;> omega

/-- No lead is a continuation byte, and none is 0xC0, 0xC1 or above 0xF4. -/
theorem lead_range {n : Nat} (h : n < 0x110000) :
    lead n < 0x80 ∨ (0xC2 ≤ lead n ∧ lead n < 0xF5) := by
  unfold lead
  split
  · omega
  · split
    · omega
    · split <;> omega

/-- The first byte tells how many bytes follow, and all of the code point that they leave out. -/
theorem lead_inj {n m : Nat} (hn : n < 0x110000) (hm : m < 0x110000) (h : lead n = lead m) :
    following n = following m ∧ n / 64 ^ following n = m / 64 ^ following m := by
  by_cases h₁ : lead m < 0x80
  · have hn := (lead_eq_one h₁).mp h
    have hm := (lead_eq_one h₁).mp rfl
    rw [hn, ← hm]
    exact ⟨rfl, rfl⟩
  by_cases h₂ : lead m < 0xE0
  · have hrange := lead_range hm
    have hn := (lead_eq_two (by omega) h₂).mp h
    have hm := (lead_eq_two (by omega) h₂).mp rfl
    rw [following_eq_one (by omega) (by omega), following_eq_one (by omega) (by omega)]
    omega
  by_cases h₃ : lead m < 0xF0
  · have hn := (lead_eq_three (by omega) h₃).mp h
    have hm := (lead_eq_three (by omega) h₃).mp rfl
    rw [following_eq_two (by omega) (by omega), following_eq_two (by omega) (by omega)]
    omega
  · have h₃ := Nat.not_lt.mp h₃
    have hn := (lead_eq_four h₃).mp h
    have hm := (lead_eq_four h₃).mp rfl
    rw [following_eq_three (by omega), following_eq_three (by omega)]
    omega

/-! ## Whole characters -/

/-- A character is its first byte and the continuation bytes that it asks for. -/
theorem encodeChar_eq (c : Char) :
    encodeChar c = (lead c.toNat).toUInt8 :: continuations c.toNat (following c.toNat) := by
  by_cases h₁ : c.toNat < 0x80
  · simp only [encodeChar, lead, following, h₁, if_true, continuations]
  by_cases h₂ : c.toNat < 0x800
  · simp only [encodeChar, lead, following, h₁, h₂, if_true, if_false, continuations, continuation,
      Nat.pow_zero, Nat.div_one]
  by_cases h₃ : c.toNat < 0x10000
  · simp only [encodeChar, lead, following, h₁, h₂, h₃, if_true, if_false, continuations,
      continuation, Nat.pow_zero, Nat.div_one, Nat.pow_one]
  · simp only [encodeChar, lead, following, h₁, h₂, h₃, if_false, continuations, continuation,
      Nat.pow_zero, Nat.div_one, Nat.pow_one, Nat.reducePow]

/-- Every character has a byte. -/
theorem encodeChar_ne_nil (c : Char) : encodeChar c ≠ [] := by
  rw [encodeChar_eq]
  exact List.cons_ne_nil _ _

/-- A byte starts a character exactly if it is the character's first byte. -/
theorem singleton_prefix_encodeChar {b : UInt8} {c : Char} :
    [b] <+: encodeChar c ↔ lead c.toNat = b.toNat := by
  have hrange := lead_range (char_lt c)
  rw [encodeChar_eq, List.cons_prefix_cons, ← UInt8.toNat_inj]
  simp only [Nat.toUInt8, UInt8.toNat_ofNat', List.nil_prefix, and_true]
  omega

/-- No character's bytes begin another's. -/
theorem encodeChar_prefix_inj {c d : Char} (h : encodeChar c <+: encodeChar d) : c = d := by
  have hlead : lead c.toNat = lead d.toNat := by
    have hrange := lead_range (char_lt c)
    have hfirst : [(lead c.toNat).toUInt8] <+: encodeChar d := by
      refine List.IsPrefix.trans ?_ h
      rw [encodeChar_eq]
      exact List.prefix_append [_] _
    rw [singleton_prefix_encodeChar] at hfirst
    rw [hfirst]
    simp only [Nat.toUInt8, UInt8.toNat_ofNat']
    omega
  obtain ⟨hfollowing, hbits⟩ := lead_inj (char_lt c) (char_lt d) hlead
  rw [encodeChar_eq, encodeChar_eq, List.cons_prefix_cons, hfollowing] at h
  have heq := h.2.eq_of_length (by rw [length_continuations, length_continuations])
  have hn := continuations_inj (hfollowing ▸ hbits) heq
  rw [← Char.ofNat_toNat c, hn, Char.ofNat_toNat]

end PhpAudit.Text.Utf8
