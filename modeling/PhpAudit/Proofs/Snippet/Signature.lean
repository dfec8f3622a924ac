import PhpAudit.Proofs.Data.Related
import PhpAudit.Proofs.Text.Blank
import PhpAudit.Snippet.Signature

/-!
# What signatures match

`SignaturePart.Matches` reads the patterns of signatures off their parts: words in any letter case,
some of which may be missing, each with blanks behind it, and then the start of a name. It leaves
open which optional words a line has. The recognizer commits itself: it skips an optional word
whenever the line starts with it. It misses nothing by that (`isSignature_iff`), because no word of
a pattern is written like another one, so that the first word of a line tells which it is.
-/

namespace PhpAudit

namespace Snippet

open Text

/-! ## Patterns -/

/-- A part of a pattern: one of some words, with blanks behind it. -/
structure SignaturePart where
  words : List String
  isOptional : Bool

/-- The patterns of signatures: of types, of methods and of functions. -/
def signaturePatterns : List (List SignaturePart) := [
  [⟨["abstract"], true⟩, ⟨["final"], true⟩, ⟨["class", "interface", "trait", "enum"], false⟩],
  [⟨["public", "protected", "private", "static"], false⟩, ⟨["static"], true⟩,
    ⟨["function"], false⟩],
  [⟨["function"], false⟩]]

/-- A text is a word in some letter case. -/
def Spells (word : String) (text : List Char) : Prop :=
  List.Forall₂ (fun letter c => isLetter letter c = true) word.toList text

/-- A text is a word with blanks behind it. -/
inductive IsWord (word : String) : List Char → Prop where
  | mk {letters blanks : List Char} (hletters : Spells word letters) (hne : blanks ≠ [])
      (hblanks : ∀ c ∈ blanks, isBlank c = true) : IsWord word (letters ++ blanks)

/-- A line starts as the parts of a pattern say, and goes on with a name. -/
inductive SignaturePart.Matches : List SignaturePart → List Char → Prop where
  | name {c : Char} {rest : List Char} (h : isWordChar c = true) : Matches [] (c :: rest)
  | missing {part : SignaturePart} {parts : List SignaturePart} {line : List Char}
      (hoptional : part.isOptional = true) (hline : Matches parts line) :
      Matches (part :: parts) line
  | word {part : SignaturePart} {parts : List SignaturePart} {word : String}
      {front rest : List Char} (hword : word ∈ part.words) (hfront : IsWord word front)
      (hrest : Matches parts rest) : Matches (part :: parts) (front ++ rest)

/-! ## Letters and blanks -/

/-- The words of patterns consist of small letters, of which there is at least one. -/
def IsKeyword (word : String) : Prop :=
  word.toList ≠ [] ∧ ∀ letter ∈ word.toList, letter ∈ "abcdefghijklmnopqrstuvwxyz".toList

instance (word : String) : Decidable (IsKeyword word) :=
  @instDecidableAnd _ _ inferInstance (List.decidableBAll _ _)

/-- The characters that count as a letter. -/
def formsOf (letter : Char) : List Char :=
  [letter, letter.toUpper] ++ (if letter = 's' then [Char.ofNat 0x17F] else []) ++
    (if letter = 'i' then [Char.ofNat 0x130, Char.ofNat 0x131] else [])

/-- What matches a letter in either case is one of its forms. -/
theorem mem_formsOf {letter c : Char} (h : isLetter letter c = true) : c ∈ formsOf letter := by
  have hcode {n : Nat} (hc : c.toNat = n) : c = Char.ofNat n := by rw [← hc, Char.ofNat_toNat]
  simp only [isLetter, Bool.or_eq_true, Bool.and_eq_true, beq_iff_eq] at h
  simp only [formsOf, List.mem_append, List.mem_cons, List.not_mem_nil, or_false]
  rcases h with ((h | h) | ⟨hletter, h⟩) | ⟨hletter, h | h⟩
  · exact .inl (.inl (.inl h))
  · exact .inl (.inl (.inr h))
  · rw [if_pos hletter, hcode h]
    exact .inl (.inr List.mem_cons_self)
  · rw [if_pos hletter, hcode h]
    exact .inr List.mem_cons_self
  · rw [if_pos hletter, hcode h]
    exact .inr (List.mem_cons_of_mem _ List.mem_cons_self)

/-- The letter that a character counts as, if it counts as one. -/
def letterOf (c : Char) : Char :=
  if c = Char.ofNat 0x17F then 's'
  else if c = Char.ofNat 0x130 ∨ c = Char.ofNat 0x131 then 'i'
  else c.toLower

/-- No character counts as two letters. -/
theorem letter_unique {letter other c : Char}
    (hletter : letter ∈ "abcdefghijklmnopqrstuvwxyz".toList)
    (hother : other ∈ "abcdefghijklmnopqrstuvwxyz".toList)
    (h : isLetter letter c = true) (h' : isLetter other c = true) : letter = other := by
  have hforms : ("abcdefghijklmnopqrstuvwxyz".toList.all fun letter =>
      (formsOf letter).all fun c => letterOf c == letter) = true := by decide
  simp only [List.all_eq_true, beq_iff_eq] at hforms
  rw [← hforms letter hletter c (mem_formsOf h), hforms other hother c (mem_formsOf h')]

/-- No form of a letter is a blank. -/
theorem isBlank_letter {letter c : Char} (hletter : letter ∈ "abcdefghijklmnopqrstuvwxyz".toList)
    (h : isLetter letter c = true) : isBlank c = false := by
  have hforms : ("abcdefghijklmnopqrstuvwxyz".toList.all fun letter =>
      (formsOf letter).all fun c => !isBlank c) = true := by decide
  simp only [List.all_eq_true, Bool.not_eq_true'] at hforms
  exact hforms letter hletter c (mem_formsOf h)

/-- No character of a word is a blank. -/
theorem isBlank_wordChar {c : Char} (h : isWordChar c = true) : isBlank c = false := by
  unfold isWordChar at h
  split at h
  next hascii =>
    have hcodes : ∀ n < 0x80, isWordChar (Char.ofNat n) = true →
        isBlank (Char.ofNat n) = false := by decide +kernel
    have hc := hcodes c.toNat hascii
    rw [Char.ofNat_toNat] at hc
    exact hc (by rw [isWordChar, if_pos hascii, h])
  next => exact Ranges.not_contains_of_apart (by decide +kernel) h

/-! ## Words -/

/-- The characters of a line up to its first blank. -/
def firstWord (line : List Char) : List Char := line.takeWhile fun c => !isBlank c

/-- What follows the first word of a line and the blanks behind it. -/
def behindWord (line : List Char) : List Char :=
  stripStart (line.dropWhile fun c => !isBlank c)

/-- A keyword is taken off the front letter by letter, in either case. -/
theorem afterKeyword?_eq_some {word text rest : List Char} :
    afterKeyword? word text = some rest ↔ ∃ letters, text = letters ++ rest ∧
      List.Forall₂ (fun letter c => isLetter letter c = true) word letters := by
  induction word generalizing text with
  | nil =>
    rw [afterKeyword?, Option.some.injEq]
    constructor
    · intro h
      exact ⟨[], h, .nil⟩
    · rintro ⟨_, htext, ⟨⟩⟩
      exact htext
  | cons letter word ih =>
    constructor
    · intro h
      cases text with
      | nil => cases h
      | cons c text =>
        rw [afterKeyword?] at h
        split at h
        next hletter =>
          obtain ⟨letters, htext, hletters⟩ := ih.mp h
          exact ⟨c :: letters, by rw [htext, List.cons_append], .cons hletter hletters⟩
        next => cases h
    · rintro ⟨letters, rfl, hletters⟩
      cases hletters with
      | cons hletter hletters =>
        rw [List.cons_append, afterKeyword?, if_pos hletter]
        exact ih.mpr ⟨_, rfl, hletters⟩

/-- The spelling of a keyword holds no blank. -/
theorem Spells.isBlank_eq_false {word : String} {letters : List Char} (hword : IsKeyword word)
    (h : Spells word letters) : ∀ c ∈ letters, isBlank c = false := by
  intro c hc
  obtain ⟨letter, hletter, hspelled⟩ := Data.exists_mem_left h hc
  exact isBlank_letter (hword.2 _ hletter) hspelled

/-- A text spells one word only. -/
theorem Spells.unique {word other : String} {letters : List Char} (hword : IsKeyword word)
    (hother : IsKeyword other) (h : Spells word letters) (h' : Spells other letters) :
    word = other := by
  apply String.toList_inj.mp
  apply List.ext_getElem (h.length_eq.trans h'.length_eq.symm)
  intro i hi hi'
  have hlength := h.length_eq
  exact letter_unique (hword.2 _ (List.getElem_mem hi)) (hother.2 _ (List.getElem_mem hi'))
    (h.get hi (by omega)) (h'.get hi' (by omega))

/-- Where a word and its blanks end: the first word is cut off where a blank comes, and the rest
where no blank comes any more. -/
theorem IsWord.cut {word : String} {front rest : List Char} (hword : IsKeyword word)
    (h : IsWord word front) (hrest : IsFlush rest) :
    Spells word (firstWord (front ++ rest)) ∧ behindWord (front ++ rest) = rest := by
  obtain @⟨letters, blanks, hletters, hne, hblanks⟩ := h
  have hstart : ∀ c ∈ letters, (!isBlank c) = true := by
    intro c hc
    rw [hletters.isBlank_eq_false hword c hc, Bool.not_false]
  have hcut : firstWord (letters ++ (blanks ++ rest)) = letters ∧
      (letters ++ (blanks ++ rest)).dropWhile (fun c => !isBlank c) = blanks ++ rest := by
    obtain ⟨blank, blanks, rfl⟩ := List.exists_cons_of_ne_nil hne
    have hblank := hblanks blank List.mem_cons_self
    constructor
    · rw [firstWord, List.takeWhile_append_of_pos hstart, List.cons_append,
        List.takeWhile_cons_of_neg (by simp [hblank]), List.append_nil]
    · rw [List.dropWhile_append_of_pos hstart, List.cons_append,
        List.dropWhile_cons_of_neg (by simp [hblank])]
  rw [List.append_assoc, behindWord, hcut.1, hcut.2]
  exact ⟨hletters, hrest.stripStart_append hblanks⟩

/-- A word with its blanks is taken off the front when no blank follows. -/
theorem afterWord?_append {word : String} {front rest : List Char} (h : IsWord word front)
    (hrest : IsFlush rest) : afterWord? word (front ++ rest) = some rest := by
  obtain @⟨letters, blanks, hletters, hne, hblanks⟩ := h
  have hkeyword : afterKeyword? word.toList (letters ++ blanks ++ rest) = some (blanks ++ rest) :=
    afterKeyword?_eq_some.mpr ⟨letters, List.append_assoc _ _ _, hletters⟩
  obtain ⟨blank, blanks, rfl⟩ := List.exists_cons_of_ne_nil hne
  obtain ⟨hblank, hblanks⟩ := List.forall_mem_cons.mp hblanks
  rw [afterWord?, hkeyword, Option.bind_some, List.cons_append, afterBlanks?, if_pos hblank,
    hrest.stripStart_append hblanks]

/-- What is taken off the front is the word with all its blanks. -/
theorem exists_of_afterWord? {word : String} {line rest : List Char}
    (h : afterWord? word line = some rest) :
    ∃ front, line = front ++ rest ∧ IsWord word front ∧ IsFlush rest := by
  rw [afterWord?, Option.bind_eq_some_iff] at h
  obtain ⟨text, hkeyword, hblanks⟩ := h
  obtain ⟨letters, rfl, hletters⟩ := afterKeyword?_eq_some.mp hkeyword
  cases text with
  | nil => cases hblanks
  | cons blank text =>
    rw [afterBlanks?] at hblanks
    split at hblanks
    next hblank =>
      cases hblanks
      have hall : ∀ c ∈ blank :: text.takeWhile isBlank, isBlank c = true :=
        List.forall_mem_cons.mpr ⟨hblank, fun c hc => List.mem_takeWhile_imp hc⟩
      refine ⟨_, ?_, ⟨hletters, List.cons_ne_nil _ _, hall⟩, isFlush_stripStart text⟩
      rw [stripStart, List.append_assoc, List.cons_append, List.takeWhile_append_dropWhile]
    next => cases hblanks

/-- A word that is taken off a line is its first word, and what is left is what follows that. -/
theorem afterWord?_cut {word : String} {line rest : List Char} (hword : IsKeyword word)
    (h : afterWord? word line = some rest) :
    Spells word (firstWord line) ∧ behindWord line = rest := by
  obtain ⟨front, rfl, hfront, hrest⟩ := exists_of_afterWord? h
  exact hfront.cut hword hrest

/-- One word to choose from is that word. -/
theorem afterOneOf?_singleton (word : String) (line : List Char) :
    afterOneOf? [word] line = afterWord? word line := by
  rw [afterOneOf?, List.findSome?_singleton]

/-! ## Parts of patterns -/

namespace SignaturePart

/-- The words of a part are keywords. -/
def IsProper (part : SignaturePart) : Prop := ∀ word ∈ part.words, IsKeyword word

/-- The words that a line can start with: those of the optional parts in front, and of the first
part that is not optional. -/
def leadingWords : List SignaturePart → List String
  | [] => []
  | part :: parts => part.words ++ if part.isOptional then leadingWords parts else []

variable {part : SignaturePart} {parts : List SignaturePart} {line : List Char}

/-- A line that matches starts with a letter or with a character of a name. -/
theorem Matches.isFlush (h : Matches parts line) (hparts : ∀ part ∈ parts, part.IsProper) :
    IsFlush line := by
  induction h with
  | name hc =>
    rintro _ ⟨⟩
    exact isBlank_wordChar hc
  | missing _ _ ih => exact ih (List.forall_mem_cons.mp hparts).2
  | word hword hfront _ _ =>
    have hkeyword := (List.forall_mem_cons.mp hparts).1 _ hword
    obtain @⟨letters, blanks, hletters, -, -⟩ := hfront
    cases letters with
    | nil => exact absurd (List.length_eq_zero_iff.mp hletters.length_eq) hkeyword.1
    | cons c letters =>
      rintro _ ⟨⟩
      exact hletters.isBlank_eq_false hkeyword c List.mem_cons_self

/-- The first word of a line that matches is one of the leading words, unless every part is
optional. -/
theorem Matches.exists_spells (h : Matches parts line) (hparts : ∀ part ∈ parts, part.IsProper)
    (hneeded : ∃ part ∈ parts, part.isOptional = false) :
    ∃ word ∈ leadingWords parts, Spells word (firstWord line) := by
  induction h with
  | name =>
    obtain ⟨_, hmem, -⟩ := hneeded
    cases hmem
  | @missing part parts line hoptional hline ih =>
    obtain ⟨needed, hmem, hneeded⟩ := hneeded
    rcases List.mem_cons.mp hmem with rfl | hmem
    · rw [hoptional] at hneeded
      cases hneeded
    · obtain ⟨word, hword, hspells⟩ := ih (List.forall_mem_cons.mp hparts).2 ⟨needed, hmem, hneeded⟩
      refine ⟨word, ?_, hspells⟩
      rw [leadingWords, if_pos hoptional]
      exact List.mem_append_right _ hword
  | @word part parts word front rest hword hfront hrest ih =>
    obtain ⟨hpart, hparts⟩ := List.forall_mem_cons.mp hparts
    exact ⟨word, List.mem_append_left _ hword,
      (hfront.cut (hpart word hword) (hrest.isFlush hparts)).1⟩

/-- A part that is not optional: the first of its words that the line starts with is the one. -/
theorem matches_needed_iff {words : List String}
    (hproper : ∀ part ∈ ⟨words, false⟩ :: parts, part.IsProper) :
    Matches (⟨words, false⟩ :: parts) line ↔
      ∃ rest, afterOneOf? words line = some rest ∧ Matches parts rest := by
  obtain ⟨hpart, hparts⟩ := List.forall_mem_cons.mp hproper
  constructor
  · intro h
    cases h with
    | missing hoptional => cases hoptional
    | @word _ _ word front rest hword hfront hrest =>
      have hflush := hrest.isFlush hparts
      have hsome : (afterOneOf? words (front ++ rest)).isSome = true := by
        rw [afterOneOf?, List.findSome?_isSome_iff]
        exact ⟨word, hword, by rw [afterWord?_append hfront hflush, Option.isSome_some]⟩
      obtain ⟨found, hfound⟩ := Option.isSome_iff_exists.mp hsome
      obtain ⟨other, hother, hafter⟩ := List.exists_of_findSome?_eq_some hfound
      have heq : found = rest := by
        rw [← (afterWord?_cut (hpart other hother) hafter).2,
          (hfront.cut (hpart word hword) hflush).2]
      exact ⟨rest, heq ▸ hfound, hrest⟩
  · rintro ⟨rest, hafter, hrest⟩
    obtain ⟨word, hword, hafter⟩ := List.exists_of_findSome?_eq_some hafter
    obtain ⟨front, rfl, hfront, -⟩ := exists_of_afterWord? hafter
    exact .word hword hfront hrest

/-- The words that can come first in proper parts are keywords. -/
theorem isKeyword_of_mem_leadingWords (hparts : ∀ part ∈ parts, part.IsProper) :
    ∀ word ∈ leadingWords parts, IsKeyword word := by
  induction parts with
  | nil => exact fun _ hword => absurd hword List.not_mem_nil
  | cons part parts ih =>
    obtain ⟨hpart, hparts⟩ := List.forall_mem_cons.mp hparts
    intro word hword
    rw [leadingWords, List.mem_append] at hword
    rcases hword with hword | hword
    · exact hpart word hword
    · split at hword
      · exact ih hparts word hword
      · cases hword

/-- An optional word that is not among the words that can stand in its place is skipped whenever the
line starts with it. -/
theorem matches_optional_iff {word : String}
    (hproper : ∀ part ∈ ⟨[word], true⟩ :: parts, part.IsProper)
    (hneeded : ∃ part ∈ parts, part.isOptional = false) (hnew : word ∉ leadingWords parts) :
    Matches (⟨[word], true⟩ :: parts) line ↔ Matches parts (skipWord word line) := by
  obtain ⟨hpart, hparts⟩ := List.forall_mem_cons.mp hproper
  have hword : IsKeyword word := hpart word List.mem_cons_self
  -- the reader skips the word whenever it is there, and the pattern has no other way
  cases hafter : afterWord? word line with
  | none =>
    rw [skipWord, hafter, Option.getD_none]
    constructor
    · intro h
      cases h with
      | missing _ hline => exact hline
      | @word _ _ other front rest hother hfront hrest =>
        rw [List.mem_singleton.mp hother] at hfront
        rw [afterWord?_append hfront (hrest.isFlush hparts)] at hafter
        cases hafter
    · exact .missing rfl
  | some rest =>
    obtain ⟨hspells, hbehind⟩ := afterWord?_cut hword hafter
    rw [skipWord, hafter, Option.getD_some]
    constructor
    · intro h
      cases h with
      | missing _ hline =>
        -- the line would start with two words
        obtain ⟨other, hother, hspells'⟩ := hline.exists_spells hparts hneeded
        have hkeyword := isKeyword_of_mem_leadingWords hparts other hother
        exact absurd (hspells.unique hword hkeyword hspells' ▸ hother) hnew
      | @word _ _ other front rest' hother hfront hrest =>
        rw [List.mem_singleton.mp hother] at hfront
        rwa [← hbehind, (hfront.cut hword (hrest.isFlush hparts)).2]
    · intro h
      obtain ⟨front, rfl, hfront, -⟩ := exists_of_afterWord? hafter
      exact .word (List.mem_singleton_self word) hfront h

/-- Behind all parts there is a name. -/
theorem matches_nil_iff : Matches [] line ↔ startsWithWord line = true := by
  constructor
  · rintro ⟨hc⟩
    exact hc
  · intro h
    cases line with
    | nil => cases h
    | cons c rest => exact .name h

end SignaturePart

/-! ## Signatures -/

open SignaturePart

/-- The patterns of the signatures are made of proper parts. -/
theorem isProper_of_mem_signaturePatterns :
    ∀ pattern ∈ signaturePatterns, ∀ part ∈ pattern, part.IsProper := by
  unfold IsProper
  decide

/-- A type signature: its modifiers, both optional, and the kind of the type. -/
theorem isTypeSignature_iff {line : List Char} : isTypeSignature line = true ↔
    Matches [⟨["abstract"], true⟩, ⟨["final"], true⟩,
      ⟨["class", "interface", "trait", "enum"], false⟩] line := by
  have hproper := isProper_of_mem_signaturePatterns _ List.mem_cons_self
  have hfinal := (List.forall_mem_cons.mp hproper).2
  have hkind := (List.forall_mem_cons.mp hfinal).2
  rw [matches_optional_iff hproper (by decide) (by decide),
    matches_optional_iff hfinal (by decide) (by decide),
    matches_needed_iff hkind, isTypeSignature, Option.any_eq_true]
  simp only [matches_nil_iff]

/-- A method signature: a visibility or static, maybe static, and function. -/
theorem isMethodSignature_iff {line : List Char} : isMethodSignature line = true ↔
    Matches [⟨["public", "protected", "private", "static"], false⟩, ⟨["static"], true⟩,
      ⟨["function"], false⟩] line := by
  have hproper := isProper_of_mem_signaturePatterns _ (List.mem_cons_of_mem _ List.mem_cons_self)
  have hstatic := (List.forall_mem_cons.mp hproper).2
  have hfunction := (List.forall_mem_cons.mp hstatic).2
  rw [matches_needed_iff hproper]
  simp only [matches_optional_iff hstatic (by decide) (by decide), matches_needed_iff hfunction,
    matches_nil_iff, isMethodSignature, Option.any_eq_true, Option.bind_eq_some_iff,
    afterOneOf?_singleton]
  constructor
  · rintro ⟨name, ⟨rest, hrest, hname⟩, hstart⟩
    exact ⟨rest, hrest, name, hname, hstart⟩
  · rintro ⟨rest, hrest, name, hname, hstart⟩
    exact ⟨name, ⟨rest, hrest, hname⟩, hstart⟩

/-- A function signature starts with function. -/
theorem isFunctionSignature_iff {line : List Char} :
    isFunctionSignature line = true ↔ Matches [⟨["function"], false⟩] line := by
  have hproper := isProper_of_mem_signaturePatterns [⟨["function"], false⟩] (by
    rw [signaturePatterns]
    simp only [List.mem_cons, or_true, true_or])
  rw [matches_needed_iff hproper, isFunctionSignature, Option.any_eq_true, afterOneOf?_singleton]
  simp only [matches_nil_iff]

/-- **A line is taken for a signature exactly when it matches one of the patterns.** -/
theorem isSignature_iff {line : List Char} :
    isSignature line = true ↔ ∃ pattern ∈ signaturePatterns, Matches pattern line := by
  simp only [isSignature, Bool.or_eq_true, isTypeSignature_iff, isMethodSignature_iff,
    isFunctionSignature_iff, signaturePatterns, List.mem_cons, List.not_mem_nil, or_false,
    exists_eq_or_imp, exists_eq_left, or_assoc]

end Snippet

end PhpAudit
