import Mathlib.Data.List.TakeWhile
import PhpAudit.Json.Writer
import PhpAudit.Proofs.Json.Number

/-!
# Documents are read back

A document whose number tokens are numbers is read back from what is written for it, in either
layout (`read?_write`). The reader runs on fuel; twice the length of what is written is enough,
because each part that the reader goes into is shorter by the character in front of it. A number is
the only part that what follows it could change, and behind a part stands a comma, a bracket, a
brace, a line feed or nothing.
-/

namespace PhpAudit.Json

/-! ## Texts -/

section texts

variable {fuel : Nat} {c : Char} {text chars rest tail : List Char}

/-- The code of a control character is written and read in four hexadecimal digits. -/
theorem hex4_append {n : Nat} (h : n < 0x20) (rest : List Char) :
    hex4 (Text.Quoted.hex 4 n ++ rest) = some (n, rest) := by
  have hhex : ∀ n < 0x20, Text.Quoted.hex 4 n =
      ['0', '0', Nat.digitChar (n / 16), Nat.digitChar (n % 16)] := by decide
  have hvalue : ∀ d < 16, hexValue? (Nat.digitChar d) = some d := by decide
  have hzero : hexValue? '0' = some 0 := rfl
  rw [hhex n h]
  simp only [List.cons_append, List.nil_append, hex4, hzero, hvalue (n / 16) (by omega),
    hvalue (n % 16) (by omega), Option.bind_eq_bind, Option.bind_some, Option.pure_def,
    Option.some.injEq, Prod.mk.injEq, and_true]
  omega

/-- The escape of a control character stands for it. -/
theorem escape_hex {n : Nat} (h : n < 0x20) (rest : List Char) :
    escape ('u' :: (Text.Quoted.hex 4 n ++ rest)) = some (Char.ofNat n, rest) := by
  have hhigh : (decide (0xD800 ≤ n) && decide (n ≤ 0xDBFF)) = false := by
    rw [decide_eq_false (by omega), Bool.false_and]
  rw [escape, hex4_append h]
  simp only [Option.bind_eq_bind, Option.bind_some, hhigh, Bool.false_eq_true, if_false]
  rw [unitChar, if_neg (by simp; omega)]

/-- An escape in a text is read as one character, and the body goes on behind it. -/
theorem textBody_escape (hc : escape text = some (c, rest))
    (hrest : textBody fuel rest = some (chars, tail)) :
    textBody (fuel + 1) ('\\' :: text) = some (c :: chars, tail) := by
  rw [textBody, hc]
  simp only [Option.bind_eq_bind, Option.bind_some, hrest]
  rfl

/-- A character is read off what is written for it inside a text. -/
theorem textBody_escapedChar (c : Char) (hrest : textBody fuel rest = some (chars, tail)) :
    textBody (fuel + 1) (escapedChar c ++ rest) = some (c :: chars, tail) := by
  have hcode {n : Nat} (h : (c.toNat == n) = true) : Char.ofNat n = c := by
    rw [← beq_iff_eq.mp h, Char.ofNat_toNat]
  unfold escapedChar
  split_ifs with hquote hbackslash hfeed hreturn htab hback hform hcontrol
  · rw [beq_iff_eq.mp hquote]; exact textBody_escape rfl hrest
  · rw [beq_iff_eq.mp hbackslash]; exact textBody_escape rfl hrest
  · rw [beq_iff_eq.mp hfeed]; exact textBody_escape rfl hrest
  · rw [beq_iff_eq.mp hreturn]; exact textBody_escape rfl hrest
  · rw [beq_iff_eq.mp htab]; exact textBody_escape rfl hrest
  · rw [← hcode hback]; exact textBody_escape rfl hrest
  · rw [← hcode hform]; exact textBody_escape rfl hrest
  · refine textBody_escape ?_ hrest
    change escape ('u' :: (Text.Quoted.hex 4 c.toNat ++ rest)) = _
    rw [escape_hex hcontrol, Char.ofNat_toNat]
  · rw [List.singleton_append, textBody]
    · rw [if_neg hcontrol, hrest]
      rfl
    · exact fun h => hquote (beq_iff_eq.mpr h)
    · exact fun h => hbackslash (beq_iff_eq.mpr h)

/-- No character is written as nothing. -/
theorem escapedChar_ne_nil (c : Char) : escapedChar c ≠ [] := by
  unfold escapedChar
  split_ifs <;> exact List.cons_ne_nil _ _

/-- What is written for some characters is not shorter than they are. -/
theorem length_le_escaped (chars : List Char) :
    chars.length ≤ (chars.flatMap escapedChar).length := by
  induction chars with
  | nil => exact Nat.le_refl 0
  | cons c chars ih =>
    have hpos := List.length_pos_iff.mpr (escapedChar_ne_nil c)
    rw [List.flatMap_cons, List.length_append, List.length_cons]
    omega

/-- The characters of a text are read up to the closing quote. -/
theorem textBody_escaped (rest : List Char) (hfuel : chars.length < fuel) :
    textBody fuel (chars.flatMap escapedChar ++ '"' :: rest) = some (chars, rest) := by
  induction chars generalizing fuel with
  | nil =>
    obtain ⟨fuel, rfl⟩ := Nat.exists_eq_add_one.mpr hfuel
    rfl
  | cons c chars ih =>
    obtain ⟨fuel, rfl⟩ := Nat.exists_eq_add_one.mpr (Nat.zero_lt_of_lt hfuel)
    rw [List.flatMap_cons, List.append_assoc]
    exact textBody_escapedChar c (ih (Nat.lt_of_succ_lt_succ hfuel))

/-- A text is read back. -/
theorem quotedText_written (chars rest : List Char) :
    quotedText (written chars ++ rest) = some (chars, rest) := by
  have hlength := length_le_escaped chars
  rw [written, List.cons_append, List.cons_append, List.append_assoc, quotedText]
  refine textBody_escaped rest ?_
  rw [List.length_append]
  omega

end texts

/-! ## Blanks -/

section blanks

variable {words : List (List Char)} {fuel : Nat} {blanks text : List Char}

/-- All the blanks in front of a text are passed over. -/
theorem skipBlanks_append (h : ∀ c ∈ blanks, isBlank c = true) :
    skipBlanks (blanks ++ text) = skipBlanks text := List.dropWhile_append_of_pos h

/-- Where a text does not start with a blank, nothing is passed over. -/
theorem skipBlanks_cons {c : Char} (h : isBlank c = false) : skipBlanks (c :: text) = c :: text :=
  List.dropWhile_cons_of_neg (by rw [h]; exact Bool.false_ne_true)

/-- What stands in front of a part is blank. -/
theorem isBlank_of_mem_newline (style : Style) (depth : Nat) :
    ∀ c ∈ style.newline depth, isBlank c = true := by
  intro c h
  cases style with
  | compact => cases h
  | pretty =>
    rcases List.mem_cons.mp h with rfl | hspace
    · rfl
    · rw [List.eq_of_mem_replicate hspace]
      rfl

/-- Blanks in front of a document do not matter to its reading. -/
theorem document_append (h : ∀ c ∈ blanks, isBlank c = true) :
    document words fuel (blanks ++ text) = document words fuel text := by
  cases fuel with
  | zero => rfl
  | succ fuel => simp only [document, skipBlanks_append h]

/-- Blanks in front of the rest of a list do not matter to its reading. -/
theorem moreItems_append (h : ∀ c ∈ blanks, isBlank c = true) :
    moreItems words fuel (blanks ++ text) = moreItems words fuel text := by
  cases fuel with
  | zero => rfl
  | succ fuel => simp only [moreItems, skipBlanks_append h]

/-- Blanks in front of the rest of an object do not matter to its reading. -/
theorem moreFields_append (h : ∀ c ∈ blanks, isBlank c = true) :
    moreFields words fuel (blanks ++ text) = moreFields words fuel text := by
  cases fuel with
  | zero => rfl
  | succ fuel => simp only [moreFields, skipBlanks_append h]

end blanks

/-! ## Documents without parts -/

section scalars

variable {words : List (List Char)} {fuel : Nat} {token rest : List Char}

/-- A word is taken off the front of a text that starts with it. -/
theorem after?_append (word rest : List Char) : after? word (word ++ rest) = some rest := by
  induction word with
  | nil => rfl
  | cons c word ih => rw [List.cons_append, after?, if_pos rfl, ih]

/-- A word is not found where its first character differs. -/
theorem after?_of_ne {c d : Char} (h : d ≠ c) (word text : List Char) :
    after? (d :: word) (c :: text) = none := by rw [after?, if_neg h]

/-- A number does not start with a character that is neither the sign nor a digit. -/
theorem ne_of_isNumberHead {c d : Char} (hc : c = '-' ∨ c.isDigit = true)
    (hd : d ≠ '-' ∧ d.isDigit = false) : c ≠ d := by
  rintro rfl
  exact hc.elim hd.1 fun hdigit => Bool.false_ne_true (hd.2.symm.trans hdigit)

/-- Whether a character is neither blank nor a mark by which a document with parts, or the end of
one, is known. -/
def startsScalar (c : Char) : Bool :=
  !isBlank c && c != '[' && c != ']' && c != '\x7b' && c != '"'

/-- A text that starts as a document without parts does. -/
def StartsScalar (token : List Char) : Prop := ∃ c more, token = c :: more ∧ startsScalar c = true

theorem startsScalar_null : StartsScalar "null".toList := ⟨'n', "ull".toList, rfl, by decide⟩

theorem startsScalar_bool (b : Bool) : StartsScalar (boolToken b) := by
  cases b with
  | true => exact ⟨'t', "rue".toList, rfl, by decide⟩
  | false => exact ⟨'f', "alse".toList, rfl, by decide⟩

/-- A number token starts with a digit or a sign, so it is read as a scalar. -/
theorem IsNumber.startsScalar (h : IsNumber token) : StartsScalar token := by
  obtain ⟨c, more, hcons, hhead⟩ := h.head
  have hother {d : Char} := ne_of_isNumberHead (d := d) hhead
  refine ⟨c, more, hcons, ?_⟩
  simp [Json.startsScalar, isBlank, hother (d := ' ') (by decide), hother (d := '\n') (by decide),
    hother (d := '\r') (by decide), hother (d := '\t') (by decide), hother (d := '[') (by decide),
    hother (d := ']') (by decide), hother (d := '\x7b') (by decide), hother (d := '"') (by decide)]

/-- A number is taken for one, as no word starts as a number does. -/
theorem scalar_number (h : IsNumber token) (hrest : NextIsNot continues rest) :
    scalar [] (token ++ rest) = some (.num token, rest) := by
  obtain ⟨c, more, hcons, hhead⟩ := h.head
  have hword {d : Char} (hd : d ≠ '-' ∧ d.isDigit = false) (word : List Char) :
      after? (d :: word) (token ++ rest) = none := by
    rw [hcons, List.cons_append]
    exact after?_of_ne (ne_of_isNumberHead hhead hd).symm word (more ++ rest)
  have hnull : after? "null".toList (token ++ rest) = none :=
    hword (d := 'n') (by decide) "ull".toList
  have htrue : after? "true".toList (token ++ rest) = none :=
    hword (d := 't') (by decide) "rue".toList
  have hfalse : after? "false".toList (token ++ rest) = none :=
    hword (d := 'f') (by decide) "alse".toList
  rw [scalar, hnull, htrue, hfalse]
  simp only [oneOf, List.findSome?_nil, number_append h hrest, Option.map_some]

theorem scalar_null (rest : List Char) :
    scalar [] ("null".toList ++ rest) = some (.null, rest) := by
  rw [scalar, after?_append]

theorem scalar_bool (b : Bool) (rest : List Char) :
    scalar [] (boolToken b ++ rest) = some (.bool b, rest) := by
  cases b with
  | true =>
    have hnull : after? "null".toList ("true".toList ++ rest) = none :=
      after?_of_ne (by decide) "ull".toList ("rue".toList ++ rest)
    rw [boolToken, if_pos rfl, scalar, hnull, after?_append]
  | false =>
    have hnull : after? "null".toList ("false".toList ++ rest) = none :=
      after?_of_ne (by decide) "ull".toList ("alse".toList ++ rest)
    have htrue : after? "true".toList ("false".toList ++ rest) = none :=
      after?_of_ne (by decide) "rue".toList ("alse".toList ++ rest)
    rw [boolToken, if_neg Bool.false_ne_true, scalar, hnull, htrue, after?_append]

/-- A document that starts as one without parts is taken for one. -/
theorem document_scalar (h : StartsScalar token) (rest : List Char) :
    document words (fuel + 1) (token ++ rest) = scalar words (token ++ rest) := by
  obtain ⟨c, more, rfl, hc⟩ := h
  simp only [startsScalar, Bool.and_eq_true, Bool.not_eq_true', bne_iff_ne] at hc
  obtain ⟨⟨⟨⟨hblank, hbracket⟩, -⟩, hbrace⟩, hquote⟩ := hc
  rw [List.cons_append, document, skipBlanks_cons hblank]
  split
  next heq => exact absurd (List.cons.inj heq).1 hbracket
  next heq => exact absurd (List.cons.inj heq).1 hbrace
  next heq => exact absurd (List.cons.inj heq).1 hquote
  next => rfl

end scalars

/-! ## Steps of the reader -/

section steps

variable {words : List (List Char)} {fuel : Nat} {text rest tail name : List Char}
  {item value : Document} {items : List Document} {first : List Char × Document}
  {fields : List (List Char × Document)}

/-- A written text is read back, with what stands behind it left over. -/
theorem document_text (chars rest : List Char) :
    document words (fuel + 1) (written chars ++ rest) = some (.str chars, rest) := by
  have hread := quotedText_written chars rest
  rw [written, List.cons_append, List.cons_append] at hread ⊢
  rw [document, skipBlanks_cons rfl]
  simp only [hread, Option.bind_eq_bind, Option.bind_some, Option.pure_def]

/-- A list that is not closed at once is read item by item. -/
theorem document_list (hopen : ∀ more, skipBlanks text ≠ ']' :: more)
    (hitem : document words fuel text = some (item, rest))
    (hitems : moreItems words fuel rest = some (items, tail)) :
    document words (fuel + 1) ('[' :: text) = some (.list (item :: items), tail) := by
  rw [document, skipBlanks_cons rfl]
  simp only [hitem, hitems, Option.bind_eq_bind, Option.bind_some, Option.pure_def]

/-- Behind a comma one more item of a list is read, then the rest of them. -/
theorem moreItems_cons (hitem : document words fuel text = some (item, rest))
    (hitems : moreItems words fuel rest = some (items, tail)) :
    moreItems words (fuel + 1) (',' :: text) = some (item :: items, tail) := by
  rw [moreItems, skipBlanks_cons rfl]
  simp only [hitem, hitems, Option.bind_eq_bind, Option.bind_some, Option.pure_def]

/-- A written text starts with its quote, so no blank is passed over in front of it. -/
theorem skipBlanks_written (chars rest : List Char) :
    skipBlanks (written chars ++ rest) = written chars ++ rest := skipBlanks_cons rfl

/-- A field is a name, a colon and a value, and blanks may stand in front of the value. -/
theorem field_written (style : Style)
    (hvalue : document words fuel text = some (value, rest)) :
    field words (fuel + 1) (written name ++ (style.colon ++ text)) =
      some ((name, value), rest) := by
  have hcolon : ∃ blanks, (∀ c ∈ blanks, isBlank c = true) ∧ style.colon ++ text =
      ':' :: (blanks ++ text) := by
    cases style with
    | compact => exact ⟨[], nofun, rfl⟩
    | pretty => exact ⟨[' '], by simp [isBlank], rfl⟩
  obtain ⟨blanks, hblanks, hcolon⟩ := hcolon
  rw [hcolon, field, quotedText_written]
  simp only [Option.bind_eq_bind, Option.bind_some, Option.pure_def, colonAfter,
    skipBlanks_cons (show isBlank ':' = false from rfl), document_append hblanks, hvalue]

/-- An object that is not closed at once is read field by field. -/
theorem document_object (hopen : ∀ more, skipBlanks text ≠ '\x7d' :: more)
    (hfirst : field words fuel (skipBlanks text) = some (first, rest))
    (hfields : moreFields words fuel rest = some (fields, tail)) :
    document words (fuel + 1) ('\x7b' :: text) = some (.object (first :: fields), tail) := by
  rw [document, skipBlanks_cons rfl]
  simp only [hfirst, hfields, Option.bind_eq_bind, Option.bind_some, Option.pure_def]

/-- Behind a comma one more field of an object is read, then the rest of them. -/
theorem moreFields_cons (hfirst : field words fuel (skipBlanks text) = some (first, rest))
    (hfields : moreFields words fuel rest = some (fields, tail)) :
    moreFields words (fuel + 1) (',' :: text) = some (first :: fields, tail) := by
  rw [moreFields, skipBlanks_cons rfl]
  simp only [hfirst, hfields, Option.bind_eq_bind, Option.bind_some, Option.pure_def]

end steps

/-! ## What is written -/

/-- A document whose number tokens are numbers. -/
inductive Document.IsValid : Document → Prop
  | null : IsValid .null
  | bool (b : Bool) : IsValid (.bool b)
  | num {token : List Char} (h : IsNumber token) : IsValid (.num token)
  | str (chars : List Char) : IsValid (.str chars)
  | list {items : List Document} (h : ∀ item ∈ items, item.IsValid) : IsValid (.list items)
  | object {fields : List (List Char × Document)} (h : ∀ field ∈ fields, field.2.IsValid) :
    IsValid (.object fields)

/-- A document is read back from what is written for it, whatever follows, as long as a number could
not go on with it. -/
def Document.ReadsBack (doc : Document) : Prop :=
  ∀ (style : Style) (depth fuel : Nat) (rest : List Char),
    2 * (doc.write style depth).length ≤ fuel → NextIsNot continues rest →
    document [] fuel (doc.write style depth ++ rest) = some (doc, rest)

section written

variable {style : Style} {depth fuel : Nat} {rest : List Char}

/-- A number does not go on with a blank, nor with a character that a number cannot have. -/
theorem nextIsNot_newline {c : Char} (h : continues c = false) (style : Style) (depth : Nat)
    (rest : List Char) : NextIsNot continues (style.newline depth ++ c :: rest) := by
  cases style with
  | compact => exact nextIsNot_cons h
  | pretty => exact nextIsNot_cons rfl

/-- What is written of further items never continues a number token. -/
theorem nextIsNot_writeItems (style : Style) (depth : Nat) (items : List Document)
    (hrest : NextIsNot continues rest) :
    NextIsNot continues (writeItems style depth items ++ rest) := by
  cases items with
  | nil => rw [writeItems]; exact hrest
  | cons item items => rw [writeItems]; exact nextIsNot_cons rfl

/-- What is written of further fields never continues a number token. -/
theorem nextIsNot_writeFields (style : Style) (depth : Nat)
    (fields : List (List Char × Document)) (hrest : NextIsNot continues rest) :
    NextIsNot continues (writeFields style depth fields ++ rest) := by
  cases fields with
  | nil => rw [writeFields]; exact hrest
  | cons field fields =>
    obtain ⟨name, value⟩ := field
    rw [writeFields]
    exact nextIsNot_cons rfl

/-- What is written for a document does not close a list, whatever blanks stand in front. -/
theorem Document.IsValid.skipBlanks_write_ne {doc : Document} (h : doc.IsValid) (style : Style)
    (depth : Nat) (rest more : List Char) :
    skipBlanks (doc.write style depth ++ rest) ≠ ']' :: more := by
  have hfirst {c : Char} {tail : List Char} (hc : isBlank c = false ∧ c ≠ ']') :
      skipBlanks (c :: tail) ≠ ']' :: more := by
    rw [skipBlanks_cons hc.1]
    exact fun heq => hc.2 (List.cons.inj heq).1
  have hscalar {token : List Char} (htoken : StartsScalar token) :
      skipBlanks (token ++ rest) ≠ ']' :: more := by
    obtain ⟨c, tail, rfl, hc⟩ := htoken
    simp only [startsScalar, Bool.and_eq_true, Bool.not_eq_true', bne_iff_ne] at hc
    exact hfirst ⟨hc.1.1.1.1, hc.1.1.2⟩
  cases h with
  | null => exact hscalar startsScalar_null
  | bool b => exact hscalar (startsScalar_bool b)
  | num h => exact hscalar h.startsScalar
  | str chars => exact hfirst (by decide : isBlank '"' = false ∧ '"' ≠ ']')
  | @list items h =>
    cases items <;> exact hfirst (by decide : isBlank '[' = false ∧ '[' ≠ ']')
  | @object fields h =>
    cases fields <;> exact hfirst (by decide : isBlank '\x7b' = false ∧ '\x7b' ≠ ']')

/-- The items of a list are read back up to the closing bracket. -/
theorem moreItems_writeItems {items : List Document} (hitems : ∀ item ∈ items, item.ReadsBack)
    (hfuel : 2 * (writeItems style (depth + 1) items).length < fuel) (rest : List Char) :
    moreItems [] fuel (writeItems style (depth + 1) items ++ (style.newline depth ++ ']' :: rest)) =
      some (items, rest) := by
  induction items generalizing fuel with
  | nil =>
    obtain ⟨fuel, rfl⟩ := Nat.exists_eq_add_one.mpr (Nat.zero_lt_of_lt hfuel)
    rw [writeItems, List.nil_append, moreItems_append (isBlank_of_mem_newline _ _)]
    rfl
  | cons item items ih =>
    obtain ⟨fuel, rfl⟩ := Nat.exists_eq_add_one.mpr (Nat.zero_lt_of_lt hfuel)
    have hfollow := nextIsNot_writeItems style (depth + 1) items
      (nextIsNot_newline (c := ']') rfl style depth rest)
    simp only [writeItems, List.length_cons, List.length_append] at hfuel
    simp only [writeItems, List.cons_append, List.append_assoc]
    refine moreItems_cons ?_ (ih (fun other hother => hitems other (List.mem_cons_of_mem _ hother))
      (by omega))
    rw [document_append (isBlank_of_mem_newline _ _)]
    exact hitems item List.mem_cons_self style (depth + 1) fuel _ (by omega) hfollow

/-- A written field is read back under its name, when its value is. -/
theorem field_write {name : List Char} {value : Document} (hvalue : value.ReadsBack)
    (hfuel : 2 * (written name ++ (style.colon ++ value.write style depth)).length ≤ fuel)
    (hrest : NextIsNot continues rest) :
    field [] fuel (written name ++ (style.colon ++ (value.write style depth ++ rest))) =
      some ((name, value), rest) := by
  simp only [List.length_append] at hfuel
  have hname : 2 ≤ (written name).length := by simp [written]
  obtain ⟨fuel, rfl⟩ := Nat.exists_eq_add_one.mpr (by omega : 0 < fuel)
  exact field_written style (hvalue style depth fuel rest (by omega) hrest)

/-- The fields of an object are read back up to the closing brace. -/
theorem moreFields_writeFields {fields : List (List Char × Document)}
    (hfields : ∀ field ∈ fields, field.2.ReadsBack)
    (hfuel : 2 * (writeFields style (depth + 1) fields).length < fuel) (rest : List Char) :
    moreFields [] fuel
        (writeFields style (depth + 1) fields ++ (style.newline depth ++ '\x7d' :: rest)) =
      some (fields, rest) := by
  induction fields generalizing fuel with
  | nil =>
    obtain ⟨fuel, rfl⟩ := Nat.exists_eq_add_one.mpr (Nat.zero_lt_of_lt hfuel)
    rw [writeFields, List.nil_append, moreFields_append (isBlank_of_mem_newline _ _)]
    rfl
  | cons field fields ih =>
    obtain ⟨name, value⟩ := field
    obtain ⟨fuel, rfl⟩ := Nat.exists_eq_add_one.mpr (Nat.zero_lt_of_lt hfuel)
    have hfollow := nextIsNot_writeFields style (depth + 1) fields
      (nextIsNot_newline (c := '\x7d') rfl style depth rest)
    simp only [writeFields, List.length_cons, List.length_append] at hfuel
    simp only [writeFields, List.cons_append, List.append_assoc]
    refine moreFields_cons ?_
      (ih (fun other hother => hfields other (List.mem_cons_of_mem _ hother)) (by omega))
    rw [skipBlanks_append (isBlank_of_mem_newline _ _), skipBlanks_written]
    exact field_write (hfields (name, value) List.mem_cons_self)
      (by simp only [List.length_append]; omega) hfollow

/-- A document without parts is read back if it is taken for what it is. -/
theorem readsBack_of_scalar {doc : Document} {token : List Char}
    (hwrite : ∀ style depth, doc.write style depth = token) (hstart : StartsScalar token)
    (hscalar : ∀ rest, NextIsNot continues rest →
      scalar [] (token ++ rest) = some (doc, rest)) : doc.ReadsBack := by
  intro style depth fuel rest hfuel hrest
  have hlength : 0 < token.length := by
    obtain ⟨c, more, rfl, -⟩ := hstart
    exact Nat.succ_pos _
  rw [hwrite] at hfuel ⊢
  obtain ⟨fuel, rfl⟩ := Nat.exists_eq_add_one.mpr (by omega : 0 < fuel)
  rw [document_scalar hstart, hscalar rest hrest]

/-- Every text document is read back. -/
theorem readsBack_text (chars : List Char) : (Document.str chars).ReadsBack := by
  intro style depth fuel rest hfuel _
  rw [Document.write] at hfuel ⊢
  have hlength : 2 ≤ (written chars).length := by simp [written]
  obtain ⟨fuel, rfl⟩ := Nat.exists_eq_add_one.mpr (by omega : 0 < fuel)
  exact document_text chars rest

/-- A list is read back when each of its items is. -/
theorem readsBack_list {items : List Document} (hvalid : ∀ item ∈ items, item.IsValid)
    (hitems : ∀ item ∈ items, item.ReadsBack) : (Document.list items).ReadsBack := by
  intro style depth fuel rest hfuel _
  cases items with
  | nil =>
    obtain ⟨fuel, rfl⟩ := Nat.exists_eq_add_one.mpr (Nat.lt_of_lt_of_le (by decide : 0 < 4) hfuel)
    rfl
  | cons item items =>
    rw [Document.write] at hfuel ⊢
    simp only [List.length_cons, List.length_append] at hfuel
    simp only [List.cons_append, List.append_assoc, List.nil_append]
    obtain ⟨fuel, rfl⟩ := Nat.exists_eq_add_one.mpr (by omega : 0 < fuel)
    have hitem := hitems item List.mem_cons_self style (depth + 1) fuel _ (by omega)
      (nextIsNot_writeItems style (depth + 1) items
        (nextIsNot_newline (c := ']') rfl style depth rest))
    have hmore := moreItems_writeItems
      (fun other hother => hitems other (List.mem_cons_of_mem _ hother))
      (by omega : 2 * (writeItems style (depth + 1) items).length < fuel) rest
    rw [← document_append (isBlank_of_mem_newline style (depth + 1))] at hitem
    refine document_list (fun more => ?_) hitem hmore
    rw [skipBlanks_append (isBlank_of_mem_newline _ _)]
    exact (hvalid item List.mem_cons_self).skipBlanks_write_ne style (depth + 1) _ more

/-- An object is read back when the value of each of its fields is. -/
theorem readsBack_object {fields : List (List Char × Document)}
    (hfields : ∀ field ∈ fields, field.2.ReadsBack) : (Document.object fields).ReadsBack := by
  intro style depth fuel rest hfuel _
  cases fields with
  | nil =>
    obtain ⟨fuel, rfl⟩ := Nat.exists_eq_add_one.mpr (Nat.lt_of_lt_of_le (by decide : 0 < 4) hfuel)
    rfl
  | cons field fields =>
    obtain ⟨name, value⟩ := field
    rw [Document.write] at hfuel ⊢
    simp only [List.length_cons, List.length_append] at hfuel
    simp only [List.cons_append, List.append_assoc, List.nil_append]
    obtain ⟨fuel, rfl⟩ := Nat.exists_eq_add_one.mpr (by omega : 0 < fuel)
    have hfirst := field_write (hfields (name, value) List.mem_cons_self)
      (by simp only [List.length_append]; omega : 2 * (written name ++
        (style.colon ++ value.write style (depth + 1))).length ≤ fuel)
      (nextIsNot_writeFields style (depth + 1) fields
        (nextIsNot_newline (c := '\x7d') rfl style depth rest))
    have hmore := moreFields_writeFields
      (fun other hother => hfields other (List.mem_cons_of_mem _ hother))
      (by omega : 2 * (writeFields style (depth + 1) fields).length < fuel) rest
    -- The reader takes the name from behind the blanks, so they are put back in front of it.
    rw [← skipBlanks_written, ← skipBlanks_append (isBlank_of_mem_newline style (depth + 1))]
      at hfirst
    refine document_object (fun more => ?_) hfirst hmore
    rw [skipBlanks_append (isBlank_of_mem_newline _ _), skipBlanks_written]
    exact fun heq => absurd (List.cons.inj heq).1 (by decide : '"' ≠ '\x7d')

/-- **Documents are read back, part by part.** -/
theorem Document.IsValid.readsBack {doc : Document} (h : doc.IsValid) : doc.ReadsBack := by
  induction h with
  | null =>
    exact readsBack_of_scalar (fun _ _ => rfl) startsScalar_null fun rest _ => scalar_null rest
  | bool b =>
    exact readsBack_of_scalar (fun _ _ => rfl) (startsScalar_bool b) fun rest _ =>
      scalar_bool b rest
  | num h => exact readsBack_of_scalar (fun _ _ => rfl) h.startsScalar fun _ => scalar_number h
  | str chars => exact readsBack_text chars
  | list h ih => exact readsBack_list h ih
  | object _ ih => exact readsBack_object ih

end written

/-- **Writing and reading.** What is written for a document whose number tokens are numbers holds
that document and nothing else, in either layout. -/
theorem read?_write {doc : Document} (h : doc.IsValid) (style : Style) :
    read? (doc.write style 0) = some doc := by
  have hread := h.readsBack style 0 (2 * (doc.write style 0).length + 2) []
    (Nat.le_add_right _ _) nextIsNot_nil
  rw [List.append_nil] at hread
  rw [read?, readWith?, hread]
  rfl

end PhpAudit.Json
