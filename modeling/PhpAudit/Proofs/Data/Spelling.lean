import PhpAudit.Proofs.Data.Record
import PhpAudit.Proofs.Json.Token

/-!
# Spelled values have no control characters

Quotes, brackets and digits are visible, and inside quotes every character that is not is spelled
out. So a spelled value never changes how a terminal goes on, whatever texts it is made of
(`isVisible_spelled`). Only a text that stands alone can, because it is shown as it is.
-/

namespace PhpAudit

open Number Text

/-- Texts without the control characters in front of the blank. -/
def IsVisible (text : List Char) : Prop := ∀ c ∈ text, 0x20 ≤ c.toNat

/-- Two visible texts are visible one behind the other. -/
theorem IsVisible.append {front back : List Char} (hfront : IsVisible front)
    (hback : IsVisible back) : IsVisible (front ++ back) := by
  intro c hc
  rcases List.mem_append.mp hc with hc | hc
  · exact hfront c hc
  · exact hback c hc

theorem isVisible_nil : IsVisible [] := nofun

theorem isVisible_cons {c : Char} {text : List Char} (hc : 0x20 ≤ c.toNat) (htext : IsVisible text) :
    IsVisible (c :: text) :=
  List.forall_mem_cons.mpr ⟨hc, htext⟩

/-- A literal text is visible by a look at its characters. -/
theorem isVisible_literal (s : String) (h : s.toList.all (fun c => 0x20 ≤ c.toNat) = true) :
    IsVisible s.toList := by
  intro c hc
  exact of_decide_eq_true (List.all_eq_true.mp h c hc)

/-- Visible parts make a visible text. -/
theorem isVisible_flatMap {α : Type} {parts : List α} {text : α → List Char}
    (h : ∀ part ∈ parts, IsVisible (text part)) : IsVisible (parts.flatMap text) := by
  intro c hc
  obtain ⟨part, hpart, hc⟩ := List.mem_flatMap.mp hc
  exact h part hpart c hc

/-! ## Numbers -/

/-- Digits are visible. -/
theorem isVisible_digits {digits : List Char} (h : ∀ c ∈ digits, c.isDigit = true) :
    IsVisible digits := by
  intro c hc
  have := Integer.toNat_of_isDigit (h c hc)
  omega

/-- A written integer is visible. -/
theorem isVisible_integer (n : Int) : IsVisible (Integer.text n).toList := by
  rw [Integer.text, String.toList_ofList]
  intro c hc
  rcases Integer.mem_chars hc with rfl | hdigit
  · decide
  · exact isVisible_digits (fun d hd => List.mem_singleton.mp hd ▸ hdigit) c
      (List.mem_singleton_self c)

/-- The parts of a number are visible. -/
theorem Json.IsNumber.isVisible {chars : List Char} (h : Json.IsNumber chars) : IsVisible chars := by
  have hdigits {digits : List Char} (h : Json.AreDigits digits) : IsVisible digits :=
    isVisible_digits h.isDigit
  have hmagnitude {chars : List Char} (h : Json.IsMagnitude chars) : IsVisible chars := by
    obtain ⟨hwhole, hfraction, hexponent⟩ := h
    refine ((hdigits hwhole.areDigits).append ?_).append ?_
    · cases hfraction with
      | missing => exact isVisible_nil
      | places hplaces => exact isVisible_cons (by decide) (hdigits hplaces)
    · cases hexponent with
      | missing => exact isVisible_nil
      | power hmark hsign hpower =>
        refine isVisible_cons ?_ (IsVisible.append ?_ (hdigits hpower))
        · rcases hmark with rfl | rfl <;> decide
        · rcases hsign with rfl | rfl | rfl
          · exact isVisible_nil
          · exact isVisible_cons (by decide) isVisible_nil
          · exact isVisible_cons (by decide) isVisible_nil
  cases h with
  | unsigned h => exact hmagnitude h
  | negative h => exact isVisible_cons (by decide) (hmagnitude h)

/-- A number is visible; the words for the numbers that are not finite are as well. -/
theorem isVisible_number (x : Binary64) : IsVisible x.text.toList := by
  cases hfinite : x.isFinite with
  | true =>
    have htoken : x.text.toList = Json.numberToken x := by
      cases x with
      | finite => rfl
      | _ => cases hfinite
    rw [htoken]
    exact (Json.isNumber_numberToken hfinite).isVisible
  | false =>
    cases x with
    | nan => exact isVisible_literal _ (by decide)
    | infinite negative => cases negative <;> exact isVisible_literal _ (by decide)
    | finite => cases hfinite

/-! ## Texts in quotes -/

/-- A number in base sixteen is visible. -/
theorem isVisible_toDigits (n : Nat) : IsVisible (Nat.toDigits 16 n) := by
  have hdigit {d : Nat} (hd : d < 16) : IsVisible [Nat.digitChar d] := by
    have hcodes : ∀ d < 16, 0x20 ≤ (Nat.digitChar d).toNat := by decide
    exact isVisible_cons (hcodes d hd) isVisible_nil
  induction n using Nat.strong_induction_on with
  | _ n ih =>
    rw [Nat.toDigits_eq_if (by decide)]
    split
    next hlt => exact hdigit hlt
    next hge => exact (ih (n / 16) (by omega)).append (hdigit (Nat.mod_lt _ (by decide)))

/-- A padded number in base sixteen is visible. -/
theorem isVisible_hex (width n : Nat) : IsVisible (Quoted.hex width n) := by
  refine IsVisible.append ?_ (isVisible_toDigits n)
  intro c hc
  rw [List.eq_of_mem_replicate hc]
  decide

/-- A character is visible once it is spelled within quotes, controls included. -/
theorem isVisible_quoteChar {quote : Char} (hquote : 0x20 ≤ quote.toNat) (c : Char) :
    IsVisible (Quoted.quoteChar quote c) := by
  have hescape {letter : Char} {rest : List Char} (hletter : 0x20 ≤ letter.toNat)
      (hrest : IsVisible rest) : IsVisible ('\\' :: letter :: rest) :=
    isVisible_cons (by decide) (isVisible_cons hletter hrest)
  unfold Quoted.quoteChar
  split
  next h =>
    refine hescape ?_ isVisible_nil
    rw [Bool.or_eq_true, beq_iff_eq, beq_iff_eq] at h
    rcases h with rfl | rfl
    · exact hquote
    · decide
  repeat' split
  · exact hescape (by decide) isVisible_nil
  · exact hescape (by decide) isVisible_nil
  · exact hescape (by decide) isVisible_nil
  · next h =>
    refine isVisible_cons ?_ isVisible_nil
    unfold isPrintable at h
    split at h
    next => exact of_decide_eq_true (Bool.and_eq_true_iff.mp h).1
    next hlarge => omega
  · exact hescape (by decide) (isVisible_hex 2 _)
  · exact hescape (by decide) (isVisible_hex 4 _)
  · exact hescape (by decide) (isVisible_hex 8 _)

/-- A quoted text is visible, whatever the text. -/
theorem isVisible_quotedText (s : String) : IsVisible (Data.quotedText s).toList := by
  have hquote : 0x20 ≤ (Quoted.quoteOf s.toList).toNat := by
    unfold Quoted.quoteOf
    split <;> decide
  rw [Data.quotedText, String.toList_ofList, Quoted.quoted]
  exact isVisible_cons hquote ((isVisible_flatMap fun c _ => isVisible_quoteChar hquote c).append
    (isVisible_cons hquote isVisible_nil))

/-! ## Values -/

namespace Data

/-- Visible items are visible with commas between them. -/
theorem isVisible_commaSeparated {items : List String} (h : ∀ item ∈ items, IsVisible item.toList) :
    IsVisible (commaSeparated items).toList := by
  have hcomma : IsVisible ", ".toList := isVisible_literal _ (by decide)
  rw [commaSeparated, String.toList_intercalate]
  induction items with
  | nil => exact isVisible_nil
  | cons item items ih =>
    obtain ⟨hitem, hitems⟩ := List.forall_mem_cons.mp h
    cases items with
    | nil =>
      rw [List.map_singleton, List.intercalate_singleton]
      exact hitem
    | cons next items =>
      rw [List.map_cons, List.map_cons, List.intercalate_cons_cons]
      exact (hitem.append hcomma).append (ih hitems)

theorem isVisible_append {front back : String} (hfront : IsVisible front.toList)
    (hback : IsVisible back.toList) : IsVisible (front ++ back).toList := by
  rw [String.toList_append]
  exact hfront.append hback

/-- An integer is visible, if it is written at all. -/
theorem isVisible_decimal {limit : Option Nat} {n : Int} {text : String}
    (h : decimal limit n = .ok text) : IsVisible text.toList := by
  rw [(decimal_eq_ok_iff.mp h).2]
  exact isVisible_integer n

/-- A spelled key is visible. -/
theorem Key.isVisible_spelled (key : Key) {text : String} (h : key.spelled = .ok text) :
    IsVisible text.toList := by
  cases key with
  | null => cases h; exact isVisible_literal _ (by decide)
  | bool b => cases h; cases b <;> exact isVisible_literal _ (by decide)
  | int n =>
    rw [Key.spelled] at h
    exact isVisible_decimal h
  | number x => cases h; exact isVisible_number x
  | text s => cases h; exact isVisible_quotedText s

mutual

/-- A spelled value is visible. -/
theorem Value.isVisible_spelled (value : Value) :
    ∀ text, value.spelled = .ok text → IsVisible text.toList := by
  match value with
  | .null =>
    rintro _ ⟨⟩
    exact isVisible_literal _ (by decide)
  | .bool b =>
    rintro _ ⟨⟩
    cases b <;> exact isVisible_literal _ (by decide)
  | .int n =>
    intro text h
    rw [Value.spelled] at h
    exact isVisible_decimal h
  | .number x =>
    rintro _ ⟨⟩
    exact isVisible_number x
  | .text s =>
    rintro _ ⟨⟩
    exact isVisible_quotedText s
  | .list items =>
    intro text h
    rw [Value.spelled, bind_eq_ok] at h
    obtain ⟨parts, hparts, h⟩ := h
    cases h
    have hitems := isVisible_commaSeparated (isVisible_spelledItems items parts hparts)
    exact isVisible_append (isVisible_append (isVisible_literal _ (by decide)) hitems)
      (isVisible_literal _ (by decide))
  | .dict entries =>
    intro text h
    rw [Value.spelled, bind_eq_ok] at h
    obtain ⟨parts, hparts, h⟩ := h
    cases h
    have hentries := isVisible_commaSeparated (isVisible_spelledEntries entries parts hparts)
    exact isVisible_append (isVisible_append (isVisible_literal _ (by decide)) hentries)
      (isVisible_literal _ (by decide))

/-- The spelled items of a list are visible. -/
theorem isVisible_spelledItems (items : List Value) :
    ∀ parts, spelledItems items = .ok parts → ∀ part ∈ parts, IsVisible part.toList := by
  match items with
  | [] =>
    rintro _ ⟨⟩
    exact nofun
  | item :: rest =>
    intro parts h
    rw [spelledItems, bind_eq_ok] at h
    obtain ⟨first, hfirst, h⟩ := h
    obtain ⟨more, hmore, h⟩ := bind_eq_ok.mp h
    cases h
    exact List.forall_mem_cons.mpr
      ⟨item.isVisible_spelled first hfirst, isVisible_spelledItems rest more hmore⟩

/-- The spelled entries of a mapping are visible. -/
theorem isVisible_spelledEntries (entries : List (Key × Value)) :
    ∀ parts, spelledEntries entries = .ok parts → ∀ part ∈ parts, IsVisible part.toList := by
  match entries with
  | [] =>
    rintro _ ⟨⟩
    exact nofun
  | (key, value) :: rest =>
    intro parts h
    rw [spelledEntries, bind_eq_ok] at h
    obtain ⟨name, hname, h⟩ := h
    obtain ⟨first, hfirst, h⟩ := bind_eq_ok.mp h
    obtain ⟨more, hmore, h⟩ := bind_eq_ok.mp h
    cases h
    have hkey := isVisible_append (key.isVisible_spelled hname) (isVisible_literal ": " (by decide))
    exact List.forall_mem_cons.mpr
      ⟨isVisible_append hkey (value.isVisible_spelled first hfirst),
        isVisible_spelledEntries rest more hmore⟩

end

end Data

end PhpAudit
