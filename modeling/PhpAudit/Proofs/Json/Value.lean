import PhpAudit.Proofs.Data.Record
import PhpAudit.Proofs.Data.Related
import PhpAudit.Proofs.Json.Document
import PhpAudit.Proofs.Number.ReadBack

/-!
# Documents hold values

What a document must be to hold a value is said here without the writer (`Document.Holds`): it has
the parts of the value in order, its texts are the texts of the value, its keys are named as they
read, the digits of its integers come to the integers, and its other numbers are read as the numbers
of the value. The document that the writer makes of a value holds it, and it is read back from what
is written for it (`read?_render`). There is no such document only if an integer, in a key or not,
has more digits than the limit allows (`isSettled_ofValue`).
-/

namespace PhpAudit

open Data Number

/-! ## Values that can be written -/

namespace Data.Value

/-- A value all of whose numbers are finite, other than those in keys. -/
inductive IsFinite : Value → Prop
  | null : IsFinite .null
  | bool (b : Bool) : IsFinite (.bool b)
  | int (n : Int) : IsFinite (.int n)
  | number {x : Binary64} (hfinite : x.isFinite = true) (hcanonical : x.IsCanonical) :
    IsFinite (.number x)
  | text (s : String) : IsFinite (.text s)
  | list {items : List Value} (h : ∀ item ∈ items, item.IsFinite) : IsFinite (.list items)
  | dict {entries : Entries} (hkeys : ∀ entry ∈ entries, ∀ x, entry.1 = .number x → x.IsCanonical)
    (h : ∀ entry ∈ entries, entry.2.IsFinite) : IsFinite (.dict entries)

/-- A value all of whose integers, also those in keys, are below a bound. -/
inductive IsBelow (bound : Nat) : Value → Prop
  | null : IsBelow bound .null
  | bool (b : Bool) : IsBelow bound (.bool b)
  | int {n : Int} (h : n.natAbs < bound) : IsBelow bound (.int n)
  | number (x : Binary64) : IsBelow bound (.number x)
  | text (s : String) : IsBelow bound (.text s)
  | list {items : List Value} (h : ∀ item ∈ items, item.IsBelow bound) : IsBelow bound (.list items)
  | dict {entries : Entries} (hkeys : ∀ entry ∈ entries, entry.1.toValue.IsBelow bound)
    (h : ∀ entry ∈ entries, entry.2.IsBelow bound) : IsBelow bound (.dict entries)

end Data.Value

namespace Json

/-! ## Documents and values -/

/-- The sign and the digits of an integer. -/
def IsInteger (n : Int) (token : List Char) : Prop :=
  ∃ digits, IsWhole digits ∧ token = (if n < 0 then '-' :: digits else digits) ∧
    Nat.ofDigitChars 10 digits 0 = n.natAbs

/-- What is written for a number: the same as everywhere else, with a point or an exponent to tell it
from an integer, and read as the number. Numbers that are not finite are words. -/
inductive IsSpelling : Binary64 → List Char → Prop
  | finite {x : Binary64} {token : List Char} (hfinite : x.isFinite = true)
    (hprinted : token = x.text.toList) (hnumber : IsNumber token)
    (hmark : ∃ c ∈ token, c = '.' ∨ c = 'e') (hread : Binary64.ofChars? token = some x) :
    IsSpelling x token
  | nan : IsSpelling .nan "NaN".toList
  | infinity : IsSpelling (.infinite false) "Infinity".toList
  | negativeInfinity : IsSpelling (.infinite true) "-Infinity".toList

/-- The name that a key becomes. -/
inductive IsName : Key → List Char → Prop
  | null : IsName .null "null".toList
  | yes : IsName (.bool true) "true".toList
  | no : IsName (.bool false) "false".toList
  | int {n : Int} {token : List Char} (h : IsInteger n token) : IsName (.int n) token
  | number {x : Binary64} {token : List Char} (h : IsSpelling x token) : IsName (.number x) token
  | text (s : String) : IsName (.text s) s.toList

/-- A document holds a value. -/
inductive Document.Holds : Document → Value → Prop
  | null : Holds .null .null
  | bool (b : Bool) : Holds (.bool b) (.bool b)
  | int {n : Int} {token : List Char} (h : IsInteger n token) : Holds (.num token) (.int n)
  | number {x : Binary64} {token : List Char} (h : IsSpelling x token) :
    Holds (.num token) (.number x)
  | text (s : String) : Holds (.str s.toList) (.text s)
  | list {items : List Document} {values : List Value} (h : List.Forall₂ Holds items values) :
    Holds (.list items) (.list values)
  | dict {fields : List (List Char × Document)} {entries : Entries}
    (hnames : List.Forall₂ IsName (entries.map Prod.fst) (fields.map Prod.fst))
    (hvalues : List.Forall₂ Holds (fields.map Prod.snd) (entries.map Prod.snd)) :
    Holds (.object fields) (.dict entries)

/-! ## Tokens -/

/-- A written integer is its sign and its digits. -/
theorem isInteger_chars (n : Int) : IsInteger n (Integer.chars n) :=
  ⟨_, isWhole_natChars n.natAbs, rfl, Nat.ofDigitChars_ten_toDigits⟩

/-- What is written for a finite number is the same everywhere. -/
theorem numberToken_eq {x : Binary64} (h : x.isFinite = true) : numberToken x = x.text.toList := by
  cases x with
  | finite => rfl
  | _ => cases h

/-- A decimal is written with a point or with an exponent. -/
theorem exists_mark_spelled (layout : Layout) (decimal : Decimal) :
    ∃ c ∈ decimal.spelled layout, c = '.' ∨ c = 'e' := by
  unfold Decimal.spelled
  split
  · refine ⟨'.', ?_, .inl rfl⟩
    unfold Decimal.positional
    split
    · simp
    · dsimp only
      split <;> simp
  · refine ⟨'e', ?_, .inr rfl⟩
    simp [Decimal.scientific]

/-- What is written for a finite number has a point or an exponent. -/
theorem exists_mark_numberToken {x : Binary64} (h : x.isFinite = true) :
    ∃ c ∈ numberToken x, c = '.' ∨ c = 'e' := by
  cases x with
  | nan => cases h
  | infinite => cases h
  | finite negative mantissa exponent =>
    have hmagnitude : ∃ c ∈ if mantissa = 0 then ['0', '.', '0']
        else (shortest mantissa exponent).spelled Layout.json, c = '.' ∨ c = 'e' := by
      split
      · exact ⟨'.', by decide, .inl rfl⟩
      · exact exists_mark_spelled _ _
    rw [numberToken, Binary64.spelled, String.toList_ofList]
    obtain ⟨c, hc, hmark⟩ := hmagnitude
    refine ⟨c, ?_, hmark⟩
    split
    · exact List.mem_cons_of_mem _ hc
    · exact hc

/-- A number of the format is written as it is to be. -/
theorem isSpelling_numberToken {x : Binary64} (h : x.IsCanonical) : IsSpelling x (numberToken x) := by
  cases hfinite : x.isFinite with
  | true =>
    exact .finite hfinite (numberToken_eq hfinite) (isNumber_numberToken hfinite)
      (exists_mark_numberToken hfinite) (Binary64.ofChars?_spelled hfinite h Layout.json)
  | false =>
    cases x with
    | nan => exact .nan
    | infinite negative =>
      cases negative
      · exact .infinity
      · exact .negativeInfinity
    | finite => cases hfinite

/-! ## Parts that are written one after the other -/

/-- Something is written just when its integers are below what the limit allows; otherwise it fails
for the limit. -/
def IsSettled {α : Type} (limit : Option Nat) (fits : Nat → Prop) (x : Except Fault α) : Prop :=
  (∃ a, x = .ok a ∧ ∀ digits ∈ limit, fits (10 ^ digits)) ∨
    ∃ digits ∈ limit, x = .error (.tooLong digits) ∧ ¬ fits (10 ^ digits)

section settled

variable {α β : Type} {limit : Option Nat} {fits more : Nat → Prop} {x : Except Fault α}

/-- Without an integer to write nothing can be too long. -/
theorem isSettled_ok (a : α) (h : ∀ bound, fits bound) : IsSettled limit fits (.ok a) :=
  .inl ⟨a, rfl, fun _ _ => h _⟩

/-- The bound may be stated in an equivalent way. -/
theorem IsSettled.congr (h : IsSettled limit fits x) (hiff : ∀ bound, fits bound ↔ more bound) :
    IsSettled limit more x := by
  simpa only [IsSettled, hiff] using h

/-- What is done with a part once it is written changes nothing. -/
theorem IsSettled.map (h : IsSettled limit fits x) (f : α → β) :
    IsSettled limit fits (x >>= fun a => .ok (f a)) := by
  rcases h with ⟨a, rfl, hfits⟩ | ⟨digits, hdigits, rfl, hnot⟩
  · exact .inl ⟨f a, rfl, hfits⟩
  · exact .inr ⟨digits, hdigits, rfl, hnot⟩

/-- Two parts are written if each of them is. -/
theorem IsSettled.bind {f : α → Except Fault β} (hx : IsSettled limit fits x)
    (hf : ∀ a, IsSettled limit more (f a)) :
    IsSettled limit (fun bound => fits bound ∧ more bound) (x >>= f) := by
  rcases hx with ⟨a, rfl, hfits⟩ | ⟨digits, hdigits, rfl, hnot⟩
  · rcases hf a with ⟨b, hb, hmore⟩ | ⟨digits, hdigits, hb, hnot⟩
    · exact .inl ⟨b, hb, fun digits hdigits => ⟨hfits digits hdigits, hmore digits hdigits⟩⟩
    · exact .inr ⟨digits, hdigits, hb, fun h => hnot h.2⟩
  · exact .inr ⟨digits, hdigits, rfl, fun h => hnot h.1⟩

end settled

/-- An integer is written if it has no more digits than the limit allows. -/
theorem isSettled_decimal (limit : Option Nat) (n : Int) :
    IsSettled limit (fun bound => n.natAbs < bound) (decimal limit n) := by
  cases limit with
  | none => exact .inl ⟨_, rfl, nofun⟩
  | some digits =>
    rw [decimal]
    split
    next h => exact .inr ⟨digits, rfl, rfl, Nat.not_lt.mpr h⟩
    next h =>
      refine .inl ⟨_, rfl, ?_⟩
      rintro _ ⟨⟩
      exact Nat.not_le.mp h

/-! ## The document of a value -/

/-- An integer is below a bound by its magnitude. -/
theorem isBelow_int_iff {n : Int} {bound : Nat} : (Value.int n).IsBelow bound ↔ n.natAbs < bound :=
  ⟨fun | .int h => h, .int⟩

/-- A list is below a bound when its items are. -/
theorem isBelow_list_iff {items : List Value} {bound : Nat} :
    (Value.list items).IsBelow bound ↔ ∀ item ∈ items, item.IsBelow bound :=
  ⟨fun | .list h => h, .list⟩

/-- A mapping is below a bound when its keys and values are. -/
theorem isBelow_dict_iff {entries : Entries} {bound : Nat} :
    (Value.dict entries).IsBelow bound ↔
      ∀ entry ∈ entries, entry.1.toValue.IsBelow bound ∧ entry.2.IsBelow bound := by
  constructor
  · rintro ⟨⟩
    next hkeys h => exact fun entry hentry => ⟨hkeys entry hentry, h entry hentry⟩
  · exact fun h => .dict (fun entry hentry => (h entry hentry).1) fun entry hentry =>
      (h entry hentry).2

/-- A key is written iff its integer fits the limit. -/
theorem isSettled_nameOfKey (limit : Option Nat) (key : Key) :
    IsSettled limit key.toValue.IsBelow (nameOfKey limit key) := by
  cases key with
  | null => exact isSettled_ok _ fun _ => .null
  | bool b => exact isSettled_ok _ fun _ => .bool b
  | number x => exact isSettled_ok _ fun _ => .number x
  | text s => exact isSettled_ok _ fun _ => .text s
  | int n => exact ((isSettled_decimal limit n).map _).congr fun _ => isBelow_int_iff.symm

mutual

/-- **Which values are written.** A value has a document just when its integers have no more digits
than the limit allows. -/
theorem isSettled_ofValue (limit : Option Nat) (value : Value) :
    IsSettled limit value.IsBelow (Document.ofValue limit value) := by
  match value with
  | .null => exact isSettled_ok _ fun _ => .null
  | .bool b => exact isSettled_ok _ fun _ => .bool b
  | .number x => exact isSettled_ok _ fun _ => .number x
  | .text s => exact isSettled_ok _ fun _ => .text s
  | .int n =>
    rw [Document.ofValue]
    exact ((isSettled_decimal limit n).map _).congr fun _ => isBelow_int_iff.symm
  | .list items =>
    rw [Document.ofValue]
    exact ((isSettled_documentsOf limit items).map _).congr fun _ => isBelow_list_iff.symm
  | .dict entries =>
    rw [Document.ofValue]
    exact ((isSettled_fieldsOf limit entries).map _).congr fun _ => isBelow_dict_iff.symm

/-- Items are written iff all their integers fit the limit. -/
theorem isSettled_documentsOf (limit : Option Nat) (items : List Value) :
    IsSettled limit (fun bound => ∀ item ∈ items, item.IsBelow bound) (documentsOf limit items) := by
  match items with
  | [] =>
    rw [documentsOf]
    exact isSettled_ok _ fun _ => nofun
  | item :: rest =>
    rw [documentsOf]
    refine ((isSettled_ofValue limit item).bind fun _ =>
      (isSettled_documentsOf limit rest).map _).congr fun bound => ?_
    rw [List.forall_mem_cons]

/-- Entries are written iff all their integers fit the limit, in keys and values. -/
theorem isSettled_fieldsOf (limit : Option Nat) (entries : List (Key × Value)) :
    IsSettled limit
      (fun bound => ∀ entry ∈ entries, entry.1.toValue.IsBelow bound ∧ entry.2.IsBelow bound)
      (fieldsOf limit entries) := by
  match entries with
  | [] =>
    rw [fieldsOf]
    exact isSettled_ok _ fun _ => nofun
  | (key, value) :: rest =>
    rw [fieldsOf]
    refine ((isSettled_nameOfKey limit key).bind fun _ => (isSettled_ofValue limit value).bind
      fun _ => (isSettled_fieldsOf limit rest).map _).congr fun bound => ?_
    rw [List.forall_mem_cons, and_assoc]

end

section holds

variable {limit : Option Nat} {doc : Document} {value : Value}

/-- The decimal of an integer is a token of that integer. -/
theorem isInteger_of_decimal {n : Int} {token : String} (h : decimal limit n = .ok token) :
    IsInteger n token.toList := by
  rw [(decimal_eq_ok_iff.mp h).2, Integer.text, String.toList_ofList]
  exact isInteger_chars n

/-- A key becomes a name of it. -/
theorem isName_nameOfKey {key : Key} {name : List Char}
    (hcanonical : ∀ x, key = .number x → x.IsCanonical) (h : nameOfKey limit key = .ok name) :
    IsName key name := by
  cases key with
  | null => cases h; exact .null
  | bool b =>
    cases h
    cases b
    · exact .no
    · exact .yes
  | int n =>
    obtain ⟨token, htoken, hname⟩ := bind_eq_ok.mp h
    cases hname
    exact .int (isInteger_of_decimal htoken)
  | number x =>
    cases h
    exact .number (isSpelling_numberToken (hcanonical x rfl))
  | text s => cases h; exact .text s

/-- The documents of some values are the documents of each, in order. -/
theorem forall₂_documentsOf {Related : Document → Value → Prop} {items : List Value}
    (hstep : ∀ item ∈ items, ∀ doc, Document.ofValue limit item = .ok doc → Related doc item)
    {docs : List Document} (h : documentsOf limit items = .ok docs) :
    List.Forall₂ Related docs items := by
  induction items generalizing docs with
  | nil => cases h; exact .nil
  | cons item items ih =>
    obtain ⟨hitem, hitems⟩ := List.forall_mem_cons.mp hstep
    rw [documentsOf, bind_eq_ok] at h
    obtain ⟨doc, hdoc, h⟩ := h
    obtain ⟨docs, hdocs, h⟩ := bind_eq_ok.mp h
    cases h
    exact .cons (hitem doc hdoc) (ih hitems hdocs)

/-- The fields of some entries are the names and the documents of each, in order. -/
theorem forall₂_fieldsOf {Names : Key → List Char → Prop} {Related : Document → Value → Prop}
    {entries : Entries}
    (hname : ∀ entry ∈ entries, ∀ name, nameOfKey limit entry.1 = .ok name → Names entry.1 name)
    (hvalue : ∀ entry ∈ entries, ∀ doc, Document.ofValue limit entry.2 = .ok doc →
      Related doc entry.2)
    {fields : List (List Char × Document)} (h : fieldsOf limit entries = .ok fields) :
    List.Forall₂ Names (entries.map Prod.fst) (fields.map Prod.fst) ∧
      List.Forall₂ Related (fields.map Prod.snd) (entries.map Prod.snd) := by
  induction entries generalizing fields with
  | nil => cases h; exact ⟨.nil, .nil⟩
  | cons entry entries ih =>
    obtain ⟨hfirstName, hnames⟩ := List.forall_mem_cons.mp hname
    obtain ⟨hfirst, hvalues⟩ := List.forall_mem_cons.mp hvalue
    obtain ⟨key, value⟩ := entry
    rw [fieldsOf, bind_eq_ok] at h
    obtain ⟨name, hkey, h⟩ := h
    obtain ⟨doc, hdoc, h⟩ := bind_eq_ok.mp h
    obtain ⟨more, hmore, h⟩ := bind_eq_ok.mp h
    cases h
    obtain ⟨hrestNames, hrest⟩ := ih hnames hvalues hmore
    exact ⟨.cons (hfirstName name hkey) hrestNames, .cons (hfirst doc hdoc) hrest⟩

/-- The document of a list has the documents of its items, in order. -/
theorem ofValue_list {items : List Value} (h : Document.ofValue limit (.list items) = .ok doc) :
    ∃ docs, doc = .list docs ∧
      List.Forall₂ (fun doc item => Document.ofValue limit item = .ok doc) docs items := by
  rw [Document.ofValue, bind_eq_ok] at h
  obtain ⟨docs, hdocs, h⟩ := h
  cases h
  exact ⟨docs, rfl, forall₂_documentsOf (fun _ _ _ hdoc => hdoc) hdocs⟩

/-- The document of a record has its fields under their names, in order. -/
theorem ofValue_record {fields : List (String × Value)}
    (h : Document.ofValue limit (.record fields) = .ok doc) :
    ∃ docs : List (String × Document),
      doc = .object (docs.map fun field => (field.1.toList, field.2)) ∧
      List.Forall₂ (fun field source => field.1 = source.1 ∧
        Document.ofValue limit source.2 = .ok field.2) docs fields := by
  rw [Value.record, Document.ofValue, bind_eq_ok] at h
  obtain ⟨more, hmore, h⟩ := h
  cases h
  induction fields generalizing more with
  | nil =>
    cases hmore
    exact ⟨[], rfl, .nil⟩
  | cons field fields ih =>
    rw [Entries.ofFields, List.map_cons, fieldsOf] at hmore
    obtain ⟨name, hname, hmore⟩ := bind_eq_ok.mp hmore
    obtain ⟨value, hvalue, hmore⟩ := bind_eq_ok.mp hmore
    obtain ⟨rest, hrest, hmore⟩ := bind_eq_ok.mp hmore
    cases hname
    cases hmore
    obtain ⟨docs, hdocs, hfields⟩ := ih rest hrest
    cases hdocs
    exact ⟨(field.1, value) :: docs, rfl, .cons ⟨rfl, hvalue⟩ hfields⟩

/-- **The document of a value holds it.** -/
theorem holds_ofValue (hfinite : value.IsFinite) (h : Document.ofValue limit value = .ok doc) :
    doc.Holds value := by
  induction hfinite generalizing doc with
  | null => cases h; exact .null
  | bool b => cases h; exact .bool b
  | int n =>
    rw [Document.ofValue, bind_eq_ok] at h
    obtain ⟨token, htoken, h⟩ := h
    cases h
    exact .int (isInteger_of_decimal htoken)
  | number _ hcanonical => cases h; exact .number (isSpelling_numberToken hcanonical)
  | text s => cases h; exact .text s
  | list _ ih =>
    rw [Document.ofValue, bind_eq_ok] at h
    obtain ⟨docs, hdocs, h⟩ := h
    cases h
    exact .list (forall₂_documentsOf (fun item hitem doc hdoc => ih item hitem hdoc) hdocs)
  | dict hkeys _ ih =>
    rw [Document.ofValue, bind_eq_ok] at h
    obtain ⟨fields, hfields, h⟩ := h
    cases h
    obtain ⟨hnames, hvalues⟩ := forall₂_fieldsOf
      (fun entry hentry _ hname => isName_nameOfKey (hkeys entry hentry) hname)
      (fun entry hentry doc hdoc => ih entry hentry hdoc) hfields
    exact .dict hnames hvalues

/-- A whole part with a sign is a number. -/
theorem IsInteger.isNumber {n : Int} {token : List Char} (h : IsInteger n token) :
    IsNumber token := by
  obtain ⟨digits, hwhole, rfl, -⟩ := h
  split
  · exact .negative hwhole.isMagnitude
  · exact .unsigned hwhole.isMagnitude

/-- A document that holds a value without infinite numbers has number tokens that are numbers. -/
theorem Document.Holds.isValid (h : doc.Holds value) (hfinite : value.IsFinite) : doc.IsValid := by
  induction hfinite generalizing doc with
  | null => cases h; exact .null
  | bool b => cases h; exact .bool b
  | int n =>
    cases h with
    | int h => exact .num h.isNumber
  | number hfinite _ =>
    cases h with
    | number h =>
      cases h with
      | finite _ _ hnumber => exact .num hnumber
      | _ => cases hfinite
  | text s => cases h; exact .str _
  | list _ ih =>
    cases h with
    | list h =>
      refine .list fun doc hdoc => ?_
      obtain ⟨item, hitem, hholds⟩ := exists_mem_right h hdoc
      exact ih item hitem hholds
  | dict _ _ ih =>
    cases h with
    | dict _ hvalues =>
      refine .object fun field hfield => ?_
      obtain ⟨_, hvalue, hholds⟩ := exists_mem_right hvalues (List.mem_map_of_mem hfield)
      obtain ⟨entry, hentry, rfl⟩ := List.mem_map.mp hvalue
      exact ih entry hentry hholds

/-- **A value without infinite numbers is read back**, in either layout: what is written for it holds
a document that holds the value. -/
theorem read?_render (hfinite : value.IsFinite) (h : Document.ofValue limit value = .ok doc)
    (style : Style) : doc.Holds value ∧ read? (doc.render style).toList = some doc := by
  have hholds := holds_ofValue hfinite h
  refine ⟨hholds, ?_⟩
  rw [Document.render, String.toList_ofList, read?_write (hholds.isValid hfinite)]

end holds

end Json

end PhpAudit
