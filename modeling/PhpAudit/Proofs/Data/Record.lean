import Mathlib.Algebra.Group.Nat.Defs
import Mathlib.Data.List.Nodup
import PhpAudit.Data.Reading
import PhpAudit.Proofs.Number.Integer

/-!
# Fields of records, and keys that are texts

A record is written without some of its fields, and read by looking each one up. `get?_ofFields`
says what is found: the value of a field that was kept, and nothing for one that was left out, as
long as no name stands twice. Records that have been through a text come back with their integer
keys spelled out; `toInt_text` says when such a key is the same number again.
-/

namespace PhpAudit.Data

open PhpAudit.Number

/-! ## Reading step by step -/

/-- What is read in two steps is read in each of them. -/
theorem bind_eq_ok {α β : Type} {x : Except Fault α} {f : α → Except Fault β} {b : β} :
    x >>= f = .ok b ↔ ∃ a, x = .ok a ∧ f a = .ok b := by
  cases x with
  | error fault => exact ⟨nofun, nofun⟩
  | ok a => exact ⟨fun h => ⟨a, rfl, h⟩, fun ⟨_, ha, h⟩ => by cases ha; exact h⟩

/-- What comes out of a reading, if anything does, is what was read. -/
theorem eq_ok_of_toOption {α : Type} {x : Except Fault α} {a : α} (h : x.toOption = some a) :
    x = .ok a := by
  cases x with
  | error fault => cases h
  | ok b => cases h; rfl

/-- An integer is written in decimal just when it has no more digits than the limit allows. -/
theorem decimal_eq_ok_iff {limit : Option Nat} {n : Int} {text : String} :
    decimal limit n = .ok text ↔
      (∀ digits ∈ limit, n.natAbs < 10 ^ digits) ∧ text = Integer.text n := by
  cases limit with
  | none =>
    rw [decimal, Except.ok.injEq, eq_comm]
    exact (and_iff_right nofun).symm
  | some digits =>
    rw [decimal]
    split
    next h => exact iff_of_false nofun fun hfits => Nat.not_lt.mpr h (hfits.1 digits rfl)
    next h =>
      rw [Except.ok.injEq, eq_comm, and_iff_right]
      rintro _ ⟨⟩
      exact Nat.not_le.mp h

/-! ## Looking up fields -/

variable {fields : List (String × Value)} {keep : String × Value → Bool} {name : String}
  {value : Value}

/-- A field is found under its name if it was kept. -/
theorem get?_ofFields (hnodup : (fields.map Prod.fst).Nodup) (hmem : (name, value) ∈ fields) :
    (Entries.ofFields (fields.filter keep)).get? name =
      if keep (name, value) then some value else none := by
  induction fields with
  | nil => cases hmem
  | cons field rest ih =>
    obtain ⟨hfirst, hrest⟩ := List.nodup_cons.mp hnodup
    have hmissing (h : name ∉ rest.map Prod.fst) :
        (Entries.ofFields (rest.filter keep)).get? name = none := by
      rw [Entries.get?, Option.map_eq_none_iff, List.find?_eq_none]
      rintro entry hentry hname
      obtain ⟨other, hother, rfl⟩ := List.mem_map.mp hentry
      refine h (List.mem_map.mpr ⟨other, List.mem_of_mem_filter hother, ?_⟩)
      simpa using hname
    rcases List.mem_cons.mp hmem with rfl | hmem
    · rw [List.filter_cons]
      split
      next => simp [Entries.get?, Entries.ofFields]
      next => exact hmissing hfirst
    · have hother : field.1 ≠ name := by
        rintro rfl
        have := List.mem_map_of_mem (f := Prod.fst) hmem
        exact hfirst this
      rw [← ih hrest hmem, List.filter_cons]
      split
      next => simp [Entries.get?, Entries.ofFields, hother]
      next => rfl

/-- A kept field is there when it must be. -/
theorem require_ofFields (hnodup : (fields.map Prod.fst).Nodup) (hmem : (name, value) ∈ fields)
    (hkeep : keep (name, value) = true) :
    (Entries.ofFields (fields.filter keep)).require name = .ok value := by
  rw [Entries.require, get?_ofFields hnodup hmem, if_pos hkeep]

/-- A field that is left out only when it is null is null when it is not there. -/
theorem getOrNull_ofFields (hnodup : (fields.map Prod.fst).Nodup) (hmem : (name, value) ∈ fields)
    (hkeep : keep (name, value) = false → value = .null) :
    (Entries.ofFields (fields.filter keep)).getOrNull name = value := by
  rw [Entries.getOrNull, get?_ofFields hnodup hmem]
  split
  next => rfl
  next hnot => rw [hkeep (by simpa using hnot)]; rfl

/-! ## Keys that are texts -/

/-- Entries with the value under a name replaced. -/
def Entries.mapField (name : String) (f : Value → Value) (entries : Entries) : Entries :=
  entries.map fun entry => if entry.1 = .text name then (entry.1, f entry.2) else entry

/-- A dictionary with the value under a name replaced. -/
def Value.mapField (name : String) (f : Value → Value) : Value → Value
  | .dict entries => .dict (Entries.mapField name f entries)
  | value => value

/-- A key as a text format leaves it: an integer is spelled out in decimal. -/
def Key.inText : Key → Key
  | .int n => .text (Integer.text n)
  | key => key

/-- A dictionary with its keys as a text format leaves them. -/
def Value.withTextKeys : Value → Value
  | .dict entries => .dict (entries.map fun entry => (entry.1.inText, entry.2))
  | value => value

/-- The value under a name is replaced, the others stay. -/
theorem get?_mapField (entries : Entries) (f : Value → Value) (other : String) :
    (Entries.mapField name f entries).get? other =
      (entries.get? other).map (if other = name then f else id) := by
  induction entries with
  | nil => rfl
  | cons entry rest ih =>
    obtain ⟨key, value⟩ := entry
    rw [Entries.mapField, List.map_cons]
    change Entries.get? (_ :: Entries.mapField name f rest) other = _
    by_cases hkey : key = .text other
    · subst hkey
      by_cases hname : other = name <;> simp [Entries.get?, hname]
    · have hfirst (v : Value) (rest : Entries) :
          Entries.get? ((key, v) :: rest) other = rest.get? other := by
        simp [Entries.get?, hkey]
      rw [hfirst, ← ih]
      split
      next => rw [hfirst]
      next => rw [hfirst]

/-- A replacement does not touch what must be there under another name. -/
theorem require_mapField {other : String} (h : other ≠ name) (entries : Entries)
    (f : Value → Value) :
    (Entries.mapField name f entries).require other = entries.require other := by
  rw [Entries.require, Entries.require, get?_mapField, if_neg h, Option.map_id, id]

/-- A replacement does not touch what is under another name. -/
theorem getOrNull_mapField {other : String} (h : other ≠ name) (entries : Entries)
    (f : Value → Value) :
    (Entries.mapField name f entries).getOrNull other = entries.getOrNull other := by
  rw [Entries.getOrNull, Entries.getOrNull, get?_mapField, if_neg h, Option.map_id, id]

theorem mapField_id (name : String) (value : Value) : value.mapField name id = value := by
  cases value <;> simp [Value.mapField, Entries.mapField]

/-- A key that spells out an integer stands for it, if it has no more digits than may be read. -/
theorem toInt_text {n : Int} (h : n.natAbs < 10 ^ digitLimit) :
    (Key.text (Integer.text n)).toInt = .ok n := by
  have hlength : ¬ digitLimit < ((Integer.natChars n.natAbs).map Integer.valueOfDigit).length := by
    rw [List.length_map, Nat.not_lt]
    exact (Nat.length_toDigits_le_iff (by decide) (by decide)).mpr h
  rw [Key.toInt, integerOfText, Integer.text, String.toList_ofList, Integer.parts?_chars]
  simp only [if_neg hlength, Integer.ofParts_chars]

/-- A key with more digits than may be read stands for no integer. -/
theorem toInt_text_of_le {n : Int} (h : 10 ^ digitLimit ≤ n.natAbs) :
    (Key.text (Integer.text n)).toInt =
      .error (.tooManyDigits (Integer.natChars n.natAbs).length) := by
  have hlength : digitLimit < ((Integer.natChars n.natAbs).map Integer.valueOfDigit).length := by
    rw [List.length_map, ← Nat.not_le]
    exact fun hle => absurd ((Nat.length_toDigits_le_iff (by decide) (by decide)).mp hle)
      (Nat.not_lt.mpr h)
  rw [Key.toInt, integerOfText, Integer.text, String.toList_ofList, Integer.parts?_chars]
  simp only [if_pos hlength]
  rw [List.length_map]

end PhpAudit.Data
