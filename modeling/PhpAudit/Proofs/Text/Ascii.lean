import PhpAudit.Proofs.Text.Decoding

/-!
# ASCII in byte strings

No sequence has a byte below 0x80 anywhere but in front, and there it is the whole sequence. Such a
byte therefore ends whatever has been begun before it, well-formed or not, and is read as itself
(`step_ascii`). It follows that a byte string can be cut at it before it is decoded or afterwards
(`decode_append_ascii`): no state of the decoder gets past it.
-/

namespace PhpAudit.Text.Utf8

/-- A state that the decoder comes to: it holds some bytes. -/
def State.IsReached (state : State) : Prop := ∃ p, state.Holds p

theorem isReached_idle : State.idle.IsReached := ⟨[], rfl⟩

theorem isReached_stepIdle (b : UInt8) : (stepIdle b).2.IsReached := by
  have hmeans := first_means b
  unfold stepIdle
  cases hfirst : first b with
  | complete c => exact isReached_idle
  | broken => exact isReached_idle
  | partway state =>
    rw [hfirst] at hmeans
    cases state with
    | idle => exact isReached_idle
    | inside => exact ⟨[b], hmeans⟩

theorem isReached_step {state : State} (h : state.IsReached) (b : UInt8) :
    (step state b).2.IsReached := by
  obtain ⟨p, hp⟩ := h
  cases state with
  | idle => exact isReached_stepIdle b
  | inside bits after low high =>
    have hmeans := next_means hp b
    unfold step
    cases hnext : next bits after low high b with
    | complete c => simp only [hnext]; exact isReached_idle
    | broken => simp only [hnext]; exact isReached_stepIdle b
    | partway state =>
      simp only [hnext]
      rw [hnext] at hmeans
      cases state with
      | idle => exact isReached_idle
      | inside => exact ⟨p ++ [b], hmeans⟩

/-- Between characters, a low byte is a character. -/
theorem stepIdle_ascii {b : UInt8} (hb : b < 0x80) :
    stepIdle b = ([Char.ofNat b.toNat], .idle) := by
  rw [stepIdle, first, if_pos hb]

/-- A low byte ends what has been begun, and writes itself. -/
theorem step_ascii {state : State} (h : state.IsReached) {b : UInt8} (hb : b < 0x80) :
    step state b = (finish state ++ [Char.ofNat b.toNat], .idle) := by
  cases state with
  | idle => exact stepIdle_ascii hb
  | inside bits after low high =>
    obtain ⟨p, hp⟩ := h
    have hlow : ¬ low ≤ b := by
      have hbounds := Begun.bounds hp
      simp only [UInt8.lt_iff_toNat_lt, UInt8.reduceToNat] at hb
      simp only [UInt8.le_iff_toNat_le]
      omega
    have hbroken : next bits after low high b = .broken := by
      unfold next
      rw [if_neg fun h => hlow h.1]
    simp only [step, hbroken, finish, stepIdle_ascii hb]
    rfl

/-- From every state that can be reached, what stands before a low byte and what stands behind it
are decoded apart. -/
theorem decodeFrom_append_ascii {state : State} (h : state.IsReached) (front : List UInt8)
    {b : UInt8} (hb : b < 0x80) (bytes : List UInt8) :
    decodeFrom state (front ++ b :: bytes) =
      decodeFrom state front ++ Char.ofNat b.toNat :: decode bytes := by
  induction front generalizing state with
  | nil =>
    simp only [List.nil_append, decodeFrom, step_ascii h hb, List.append_assoc]
    rfl
  | cons first front ih =>
    rw [List.cons_append, decodeFrom, decodeFrom, ih (isReached_step h first), List.append_assoc]

/-- What stands before a low byte and what stands behind it are decoded apart. -/
theorem decode_append_ascii (front : List UInt8) {b : UInt8} (hb : b < 0x80)
    (bytes : List UInt8) :
    decode (front ++ b :: bytes) = decode front ++ Char.ofNat b.toNat :: decode bytes :=
  decodeFrom_append_ascii isReached_idle front hb bytes

end PhpAudit.Text.Utf8
