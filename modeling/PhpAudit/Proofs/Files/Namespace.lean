import Mathlib.Data.List.Infix
import PhpAudit.Files.Declared
import PhpAudit.Grammar.Token
import PhpAudit.Proofs.Files.Ranges
import PhpAudit.Proofs.Text.Blank
import PhpAudit.Proofs.Text.Endings
import PhpAudit.Proofs.Text.Spans

/-!
# Namespaces of files

The header of a namespace is the word `namespace`, a name, and a semicolon or the brace that opens a
block. The search takes the first word with a blank behind it, and everything from there to the next
semicolon for the name. That is the name if the header ends with a semicolon. If it ends with a
brace, the search runs on into the block, and what it finds has the brace in it, or it finds nothing
at all (`Tree.namespace?_eq_some_iff`). The name of a class is put behind whatever was found.

Files are searched with line feeds in place of carriage returns. That moves no header: its blanks
stay blank, and the rest of it has neither (`NamespaceHeader.text_withLineFeeds`).
-/

namespace PhpAudit.Files

open PhpAudit.Text

/-! ## Searching for a word -/

/-- A word is taken off a text iff the text starts with it. -/
theorem afterText?_eq_some_iff {word text rest : List Char} :
    afterText? word text = some rest ↔ text = word ++ rest := by
  fun_induction afterText? word text with
  | case1 => rw [Option.some_inj, List.nil_append]
  | case2 word c text ih => rw [ih, List.cons_append, List.cons_inj_right]
  | case3 c word d text hne =>
    refine iff_of_false nofun fun heq => hne ?_
    rw [List.cons_append, List.cons.injEq] at heq
    exact heq.1.symm
  | case4 c word => exact iff_of_false nofun nofun

variable {α : Type} {word : List Char} {read : List Char → Option α}

/-- What cannot be read behind any earlier word is read behind a later one. -/
theorem firstAfter?_append {before text : List Char}
    (h : ∀ front back, before ++ text = front ++ (word ++ back) → front.length < before.length →
      read back = none) :
    firstAfter? word read (before ++ text) = firstAfter? word read text := by
  induction before with
  | nil => rfl
  | cons c before ih =>
    have hnone : (afterText? word (c :: (before ++ text))).bind read = none := by
      rw [Option.bind_eq_none_iff]
      intro rest hrest
      have heq := afterText?_eq_some_iff.mp hrest
      exact h [] rest heq (Nat.succ_pos _)
    rw [List.cons_append, firstAfter?, hnone]
    refine ih fun front back heq hlength => h (c :: front) back ?_ (Nat.succ_lt_succ hlength)
    rw [List.cons_append, List.cons_append, heq]

/-- What can be read behind a word that stands in front is found. -/
theorem firstAfter?_word (hword : word ≠ []) {rest : List Char} {a : α} (h : read rest = some a) :
    firstAfter? word read (word ++ rest) = some a := by
  obtain ⟨c, tail, rfl⟩ := List.exists_cons_of_ne_nil hword
  have hafter : (afterText? (c :: tail) (c :: (tail ++ rest))).bind read = some a := by
    rw [afterText?_eq_some_iff.mpr (List.cons_append).symm, Option.bind_some, h]
  rw [List.cons_append, firstAfter?, hafter]

/-- What is found was read behind some word. -/
theorem exists_of_firstAfter? {text : List Char} {a : α} (h : firstAfter? word read text = some a) :
    ∃ back, word ++ back <:+ text ∧ read back = some a := by
  induction text with
  | nil => cases h
  | cons c text ih =>
    rw [firstAfter?] at h
    split at h
    next found hfound =>
      cases h
      obtain ⟨back, hback, hread⟩ := Option.bind_eq_some_iff.mp hfound
      exact ⟨back, by rw [afterText?_eq_some_iff.mp hback], hread⟩
    next =>
      obtain ⟨back, hsuffix, hread⟩ := ih h
      exact ⟨back, hsuffix.trans (List.suffix_cons c text), hread⟩

/-! ## Clauses -/

/-- A clause is what stands in front of the first semicolon: a blank, and one more character at
least. -/
theorem clause?_eq_some_iff {text name rest : List Char} :
    clause? text = some (name, rest) ↔
      ∃ c d chars, text = c :: d :: chars ++ ';' :: rest ∧ ';' ∉ c :: d :: chars ∧
        isBlank c = true ∧ strip (c :: d :: chars) = name := by
  constructor
  · intro h
    rw [clause?] at h
    split at h
    next c d chars _ _ hspan =>
      obtain ⟨htext, hnone⟩ := eq_append_of_span hspan
      split at h
      next hblank =>
        cases h
        exact ⟨c, d, chars, htext, hnone, hblank, rfl⟩
      next => cases h
    next => cases h
  · rintro ⟨c, d, chars, rfl, hnone, hblank, rfl⟩
    rw [clause?, span_append_sep hnone]
    exact if_pos hblank

/-- Without a blank behind the keyword there is no clause. -/
theorem clause?_eq_none_of_isFlush {text : List Char} (h : IsFlush text) : clause? text = none := by
  refine Option.eq_none_iff_forall_ne_some.mpr fun ⟨name, rest⟩ hclause => ?_
  obtain ⟨c, d, chars, rfl, -, hblank, -⟩ := clause?_eq_some_iff.mp hclause
  rw [h c rfl] at hblank
  cases hblank

/-- A clause is only read where a semicolon follows. -/
theorem mem_of_clause? {text name rest : List Char} (h : clause? text = some (name, rest)) :
    ';' ∈ text := by
  obtain ⟨c, d, chars, rfl, -⟩ := clause?_eq_some_iff.mp h
  exact List.mem_append_right _ List.mem_cons_self

/-- A clause goes on until a semicolon comes. -/
theorem clause?_append {c d : Char} {chars inner : List Char} (hblank : isBlank c = true)
    (hchars : ';' ∉ c :: d :: chars) (hinner : ';' ∉ inner) (rest : List Char) :
    clause? (c :: d :: chars ++ (inner ++ ';' :: rest)) =
      some (strip (c :: d :: chars ++ inner), rest) := by
  have hnone : ';' ∉ c :: d :: chars ++ inner := by
    rw [List.mem_append, not_or]
    exact ⟨hchars, hinner⟩
  refine clause?_eq_some_iff.mpr ⟨c, d, chars ++ inner, ?_, hnone, hblank, rfl⟩
  rw [← List.append_assoc]
  rfl

/-! ## Headers -/

/-- An identifier of the grammar: letters, underscores, characters beyond ASCII, and digits but in
front. -/
structure IsIdentifier (chars : List Char) : Prop where
  start : ∃ c ∈ chars.head?, Grammar.Code.isNameStart c.toNat = true
  parts : ∀ c ∈ chars, Grammar.Code.isNamePart c.toNat = true

/-- An identifier has a character. -/
theorem IsIdentifier.ne_nil {chars : List Char} (h : IsIdentifier chars) : chars ≠ [] := by
  rintro rfl
  obtain ⟨_, ⟨⟩, _⟩ := h.start

/-- How the header of a namespace ends: with a semicolon, or with the brace that opens a block. -/
inductive NamespaceForm where
  | semicolon
  | brace
deriving DecidableEq, Repr

def NamespaceForm.mark : NamespaceForm → Char
  | semicolon => ';'
  | brace => '\x7b'

/-- The word that headers start with. -/
def namespaceWord : List Char := "namespace".toList

/-- A name of a namespace: identifiers with backslashes between them. -/
def joined (identifiers : List (List Char)) : List Char := ['\\'].intercalate identifiers

/-- A text with the header of a namespace in it, the first one. -/
structure NamespaceHeader where
  before : List Char
  blanks : List Char
  identifiers : List (List Char)
  more : List Char
  form : NamespaceForm
  after : List Char
  /-- Nowhere in front does the word have a blank behind it, as when it is not there at all. -/
  isFirst : ∀ front c back, before = front ++ (namespaceWord ++ c :: back) → isBlank c = false
  blanks_ne_nil : blanks ≠ []
  isBlank_of_mem_blanks : ∀ c ∈ blanks, isBlank c = true
  identifiers_ne_nil : identifiers ≠ []
  isIdentifier : ∀ identifier ∈ identifiers, IsIdentifier identifier
  /-- The name has no blanks at its ends, though the grammar takes some beyond ASCII for letters: those
  around the name are all in front of it and behind it. -/
  isTight : IsTight (joined identifiers)
  isBlank_of_mem_more : ∀ c ∈ more, isBlank c = true

namespace NamespaceHeader

variable (header : NamespaceHeader)

def name : List Char := joined header.identifiers

/-- The name and the blanks around it. -/
def padded : List Char := header.blanks ++ (header.name ++ header.more)

/-- What stands behind the word. -/
def clause : List Char := header.padded ++ header.form.mark :: header.after

/-- The whole text. -/
def text : List Char := header.before ++ (namespaceWord ++ header.clause)

/-- The keyword holds no blank. -/
theorem isBlank_of_mem_namespaceWord : ∀ c ∈ namespaceWord, isBlank c = false := by
  have hall : (namespaceWord.all fun c => !isBlank c) = true := by decide
  simpa only [List.all_eq_true, Bool.not_eq_true'] using hall

/-! ### The name -/

/-- The name of a header is not empty. -/
theorem name_ne_nil : header.name ≠ [] := by
  obtain ⟨first, rest, hidentifiers⟩ := List.exists_cons_of_ne_nil header.identifiers_ne_nil
  have hfirst : first ≠ [] :=
    (header.isIdentifier first (by rw [hidentifiers]; exact List.mem_cons_self)).ne_nil
  rw [name, joined, hidentifiers]
  cases rest with
  | nil => rwa [List.intercalate_singleton]
  | cons next rest =>
    rw [List.intercalate_cons_cons, List.append_assoc]
    exact List.append_ne_nil_of_left_ne_nil hfirst _

/-- A character of a qualified name is a backslash or belongs to an identifier. -/
theorem mem_joined {identifiers : List (List Char)} {c : Char} (h : c ∈ joined identifiers) :
    c = '\\' ∨ ∃ identifier ∈ identifiers, c ∈ identifier := by
  rw [joined] at h
  induction identifiers with
  | nil => cases h
  | cons first rest ih =>
    cases rest with
    | nil =>
      rw [List.intercalate_singleton] at h
      exact .inr ⟨first, List.mem_singleton_self _, h⟩
    | cons next rest =>
      rw [List.intercalate_cons_cons, List.mem_append, List.mem_append, List.mem_singleton] at h
      rcases h with (h | h) | h
      · exact .inr ⟨first, List.mem_cons_self, h⟩
      · exact .inl h
      · exact (ih h).imp_right fun ⟨other, hother, hc⟩ => ⟨other, List.mem_cons_of_mem _ hother, hc⟩

variable {header}

/-- What is no part of an identifier is no part of a name. -/
theorem notMem_name {c : Char} (hc : c ≠ '\\') (hpart : Grammar.Code.isNamePart c.toNat = false) :
    c ∉ header.name := by
  intro hmem
  obtain ⟨identifier, hidentifier, hmem⟩ := (mem_joined hmem).resolve_left hc
  rw [(header.isIdentifier identifier hidentifier).parts c hmem] at hpart
  cases hpart

/-- The mark that ends a header does not occur in its name. -/
theorem mark_notMem_name (form : NamespaceForm) : form.mark ∉ header.name := by
  cases form <;> exact notMem_name (by decide) (by decide)

/-- The name with its blanks holds no semicolon. -/
theorem semicolon_notMem_padded : ';' ∉ header.padded := by
  have hnot {blanks : List Char} (h : ∀ c ∈ blanks, isBlank c = true) : ';' ∉ blanks :=
    fun hmem => absurd (h _ hmem) (by decide)
  rw [padded, List.mem_append, List.mem_append, not_or, not_or]
  exact ⟨hnot header.isBlank_of_mem_blanks, mark_notMem_name .semicolon,
    hnot header.isBlank_of_mem_more⟩

/-- The name is what is left when the blanks around it are stripped. -/
theorem strip_padded : strip header.padded = header.name :=
  header.isTight.strip_append header.name_ne_nil header.isBlank_of_mem_blanks
    header.isBlank_of_mem_more

/-- The padded name is a blank and at least one character more. -/
theorem exists_padded_eq_cons :
    ∃ c d chars, header.padded = c :: d :: chars ∧ isBlank c = true := by
  obtain ⟨c, blanks, hblanks⟩ := List.exists_cons_of_ne_nil header.blanks_ne_nil
  obtain ⟨d, name, hname⟩ := List.exists_cons_of_ne_nil header.name_ne_nil
  have hc : isBlank c = true :=
    header.isBlank_of_mem_blanks c (by rw [hblanks]; exact List.mem_cons_self)
  rw [padded, hblanks, hname]
  cases blanks with
  | nil => exact ⟨c, d, _, rfl, hc⟩
  | cons b blanks => exact ⟨c, b, _, rfl, hc⟩

/-! ### The search -/

/-- No word further in front has a blank behind it: what follows it stands in front of the header or
is a letter of the header's own word. -/
theorem isFlush_of_earlier {front back : List Char}
    (heq : header.text = front ++ (namespaceWord ++ back))
    (hlength : front.length < header.before.length) : IsFlush back := by
  rw [text, ← List.append_assoc front] at heq
  rcases List.append_eq_append_iff.mp heq with ⟨part, hpart, hrest⟩ | ⟨part, hpart, hrest⟩
  · have hshort : part.length < namespaceWord.length := by
      have hlengths := congrArg List.length hpart
      rw [List.length_append, List.length_append] at hlengths
      omega
    rcases List.append_eq_append_iff.mp hrest with ⟨extra, rfl, -⟩ | ⟨letters, hword, rfl⟩
    · rw [List.length_append] at hshort
      omega
    · have hne : letters ≠ [] := by
        rintro rfl
        rw [List.append_nil] at hword
        rw [hword] at hshort
        exact Nat.lt_irrefl _ hshort
      refine (isFlush_of_forall fun c hc => ?_).append hne _
      exact isBlank_of_mem_namespaceWord c (by rw [hword]; exact List.mem_append_right _ hc)
  · subst hrest
    cases part with
    | nil => exact (isFlush_of_forall isBlank_of_mem_namespaceWord).append (by decide) _
    | cons c part =>
      rintro _ ⟨⟩
      exact header.isFirst front c part (by rw [hpart, List.append_assoc])

/-- Nothing in front of the header is taken for the keyword. -/
theorem namespaceIn?_text :
    namespaceIn? header.text = namespaceIn? (namespaceWord ++ header.clause) := by
  refine firstAfter?_append fun front back heq hlength => ?_
  rw [clause?_eq_none_of_isFlush (isFlush_of_earlier heq hlength), Option.map_none]

/-- The clause behind the keyword decides the namespace that is found. -/
theorem namespaceIn?_of_clause? {name rest : List Char}
    (h : clause? header.clause = some (name, rest)) : namespaceIn? header.text = some name := by
  rw [namespaceIn?_text]
  exact firstAfter?_word (by decide) (by rw [h, Option.map_some])

/-- A header that ends with a semicolon declares its name. -/
theorem namespaceIn?_semicolon (hform : header.form = .semicolon) :
    namespaceIn? header.text = some header.name := by
  obtain ⟨c, d, chars, hpadded, hblank⟩ := header.exists_padded_eq_cons
  have hnone := header.semicolon_notMem_padded
  have hclause : clause? header.clause = some (header.name, header.after) := by
    rw [← strip_padded, clause, hform]
    rw [hpadded] at hnone ⊢
    have hread := clause?_append hblank hnone List.not_mem_nil header.after
    rwa [List.append_nil] at hread
  exact namespaceIn?_of_clause? hclause

/-- What is found behind a header that ends with a brace has the brace in it. -/
theorem mem_of_namespaceIn?_brace (hform : header.form = .brace) {found : List Char}
    (h : namespaceIn? header.text = some found) : '\x7b' ∈ found := by
  obtain ⟨c, d, chars, hpadded, hblank⟩ := header.exists_padded_eq_cons
  have hnone := header.semicolon_notMem_padded
  by_cases hafter : ';' ∈ header.after
  · obtain ⟨inner, rest, hsplit, hinner⟩ := List.eq_append_cons_of_mem hafter
    have hmore : ';' ∉ '\x7b' :: inner := by
      rw [List.mem_cons, not_or]
      exact ⟨by decide, hinner⟩
    have hclause : clause? header.clause =
        some (strip (header.padded ++ '\x7b' :: inner), rest) := by
      rw [clause, hform, hsplit]
      rw [hpadded] at hnone ⊢
      exact clause?_append hblank hnone hmore rest
    rw [namespaceIn?_of_clause? hclause] at h
    cases h
    exact mem_strip (List.mem_append_right _ List.mem_cons_self) rfl
  · -- without a semicolon behind it no word at all is read
    rw [namespaceIn?_text] at h
    obtain ⟨back, hsuffix, hread⟩ := exists_of_firstAfter? h
    obtain ⟨⟨name, rest⟩, hclause, -⟩ := Option.map_eq_some_iff.mp hread
    have hmem := hsuffix.subset (List.mem_append_right namespaceWord (mem_of_clause? hclause))
    rw [List.mem_append, clause, List.mem_append, List.mem_cons, hform] at hmem
    rcases hmem with hmem | hmem | hmem | hmem
    · exact absurd hmem (by decide)
    · exact absurd hmem hnone
    · cases hmem
    · exact absurd hmem hafter

/-- The declared name is found iff the header ends in a semicolon. -/
theorem namespaceIn?_eq_some_name_iff :
    namespaceIn? header.text = some header.name ↔ header.form = .semicolon := by
  refine ⟨fun h => ?_, namespaceIn?_semicolon⟩
  cases hform : header.form with
  | semicolon => rfl
  | brace => exact absurd (mem_of_namespaceIn?_brace hform h) (mark_notMem_name .brace)

/-! ### Line feeds -/

/-- A word with a blank behind it was one before carriage returns were turned into line feeds. -/
theorem isBlank_of_withLineFeeds (header : NamespaceHeader) (front : List Char) (c : Char)
    (back : List Char)
    (h : withLineFeeds header.before = front ++ (namespaceWord ++ c :: back)) :
    isBlank c = false := by
  obtain ⟨start, rest, hbefore, -, hrest⟩ := exists_append_of_withLineFeeds h
  obtain ⟨word, tail, rfl, hword, htail⟩ := exists_append_of_withLineFeeds hrest
  have hsame : word = namespaceWord := by
    rw [← hword]
    exact (eq_of_withLineFeeds (by rw [hword]; decide)).symm
  rw [hsame] at hbefore
  fun_cases withLineFeeds tail with
  | case1 => cases htail
  | case2 tail => exact absurd (header.isFirst _ _ _ hbefore) (by decide)
  | case3 tail _ => exact absurd (header.isFirst _ _ _ hbefore) (by decide)
  | case4 d tail _ hreturn =>
    rw [withLineFeeds_cons_of_ne hreturn, List.cons.injEq] at htail
    rw [← htail.1]
    exact header.isFirst _ _ _ hbefore

/-- A header with line feeds in place of carriage returns. -/
def withLineFeeds (header : NamespaceHeader) : NamespaceHeader where
  before := Text.withLineFeeds header.before
  blanks := Text.withLineFeeds header.blanks
  identifiers := header.identifiers
  more := Text.withLineFeeds header.more
  form := header.form
  after := Text.withLineFeeds header.after
  isFirst := header.isBlank_of_withLineFeeds
  blanks_ne_nil := fun h => header.blanks_ne_nil (withLineFeeds_eq_nil_iff.mp h)
  isBlank_of_mem_blanks := isBlank_of_mem_withLineFeeds header.isBlank_of_mem_blanks
  identifiers_ne_nil := header.identifiers_ne_nil
  isIdentifier := header.isIdentifier
  isTight := header.isTight
  isBlank_of_mem_more := isBlank_of_mem_withLineFeeds header.isBlank_of_mem_more

@[simp] theorem name_withLineFeeds : header.withLineFeeds.name = header.name := rfl

@[simp] theorem form_withLineFeeds : header.withLineFeeds.form = header.form := rfl

/-- The text of a header, part by part. -/
theorem text_eq (header : NamespaceHeader) :
    header.text = header.before ++ (namespaceWord ++ (header.blanks ++ (header.name ++
      (header.more ++ header.form.mark :: header.after)))) := by
  simp only [text, clause, padded, List.append_assoc]

/-- The parts of a header keep their line endings apart: blanks stand only next to what is not
blank. -/
theorem text_withLineFeeds : header.withLineFeeds.text = Text.withLineFeeds header.text := by
  have hword : '\r' ∉ namespaceWord := by decide
  have hname : '\r' ∉ header.name := notMem_name (by decide) (by decide)
  have hmark : header.form.mark ≠ '\r' := by cases header.form <;> decide
  have hbefore {rest : List Char} : (namespaceWord ++ rest).head? ≠ some '\n' := nofun
  have hblanks {rest : List Char} : (header.name ++ rest).head? ≠ some '\n' := by
    intro h
    cases header.isTight.1.append header.name_ne_nil rest '\n' h
  have hmore {rest : List Char} : (header.form.mark :: rest).head? ≠ some '\n' := by
    cases header.form <;> exact nofun
  rw [text_eq header, withLineFeeds_append hbefore, withLineFeeds_append_of_notMem hword,
    withLineFeeds_append hblanks, withLineFeeds_append_of_notMem hname,
    withLineFeeds_append hmore, withLineFeeds_cons_of_ne hmark, text_eq]
  rfl

end NamespaceHeader

/-! ## Files -/

namespace Tree

variable {tree : Tree} {file : String} {content : List UInt8}

/-- The name of a class is put behind the namespace, so the two are told apart. -/
theorem qualifiedClass?_eq_some_iff {space declared : List Char}
    (h : tree.class? file = some declared) :
    tree.qualifiedClass? file = some (space ++ '\\' :: declared) ↔
      tree.namespace? file = some space := by
  rw [qualifiedClass?, h, Option.map_some, Option.some_inj]
  cases tree.namespace? file with
  | none =>
    refine iff_of_false (fun heq => ?_) nofun
    have hlength : declared.length = (space ++ '\\' :: declared).length := congrArg List.length heq
    rw [List.length_append, List.length_cons] at hlength
    omega
  | some found => rw [List.append_cancel_right_eq, Option.some_inj]

/-- **Namespaces are found when their headers end with semicolons.** In a readable file whose text
has the header of a namespace, and no earlier one, the name of the header is found exactly when it
ends with a semicolon and not with a brace, whatever follows. The same holds of the name put in
front of the class that the file declares, if it declares one. -/
theorem namespace?_eq_some_iff (header : NamespaceHeader)
    (hread : tree.read? (Path.ofString file) = some content)
    (htext : Utf8.decode content = header.text) :
    (tree.namespace? file = some header.name ↔ header.form = .semicolon) ∧
    ∀ declared, tree.class? file = some declared →
      (tree.qualifiedClass? file = some (header.name ++ '\\' :: declared) ↔
        header.form = .semicolon) := by
  have hfound : tree.namespace? file = namespaceIn? header.withLineFeeds.text := by
    rw [namespace?, text?_of_read? hread, Option.bind_some, textOf, htext,
      header.text_withLineFeeds]
  have hname : tree.namespace? file = some header.name ↔ header.form = .semicolon := by
    rw [hfound, ← header.name_withLineFeeds, NamespaceHeader.namespaceIn?_eq_some_name_iff,
      header.form_withLineFeeds]
  exact ⟨hname, fun _ hclass => (qualifiedClass?_eq_some_iff hclass).trans hname⟩

end Tree

/-- The header of the namespace App\Jobs, in either form. -/
def jobsHeader (form : NamespaceForm) : NamespaceHeader where
  before := "<?php\r\n".toList
  blanks := [' ']
  identifiers := ["App".toList, "Jobs".toList]
  more := [' ']
  form := form
  after := "\r\nconst LIMIT = 3;\r\nclass Run \x7b\x7d\r\n".toList
  isFirst := fun front c back h =>
    absurd ⟨front, c :: back, by rw [h, List.append_assoc]⟩
      (by decide : ¬ namespaceWord <:+: "<?php\r\n".toList)
  blanks_ne_nil := List.cons_ne_nil _ _
  isBlank_of_mem_blanks := List.forall_mem_singleton.mpr rfl
  identifiers_ne_nil := List.cons_ne_nil _ _
  isIdentifier := by
    simp only [List.forall_mem_cons, List.not_mem_nil, false_implies, implies_true, and_true]
    exact ⟨⟨⟨'A', rfl, rfl⟩, List.all_eq_true.mp rfl⟩, ⟨⟨'J', rfl, rfl⟩, List.all_eq_true.mp rfl⟩⟩
  isTight := by
    constructor <;> rintro _ ⟨⟩ <;> rfl
  isBlank_of_mem_more := List.forall_mem_singleton.mpr rfl

/-- A file with such a header. -/
def jobsTree (form : NamespaceForm) : Tree :=
  ⟨[(["a.php"], .file (Utf8.encode (jobsHeader form).text) true)]⟩

/-- With a semicolon, the class is App\Jobs\Run. -/
theorem Tree.namespace?_eq_some_iff_jobs :
    (jobsTree .semicolon).namespace? "a.php" = some "App\\Jobs".toList ∧
      (jobsTree .semicolon).qualifiedClass? "a.php" = some "App\\Jobs\\Run".toList := by
  have hread : (jobsTree .semicolon).read? (Path.ofString "a.php") =
      some (Utf8.encode (jobsHeader .semicolon).text) := by decide
  have htext : Utf8.decode (Utf8.encode (jobsHeader .semicolon).text) =
      (jobsHeader .semicolon).text := by decide
  have hclass : (jobsTree .semicolon).class? "a.php" = some "Run".toList := by decide
  obtain ⟨hname, hqualified⟩ := Tree.namespace?_eq_some_iff (jobsHeader .semicolon) hread htext
  exact ⟨hname.mpr rfl, (hqualified _ hclass).mpr rfl⟩

/-- With a brace, what is found runs on up to the first semicolon of the block. -/
theorem Tree.namespace?_ne_some_jobs :
    (jobsTree .brace).read? (Path.ofString "a.php") =
        some (Utf8.encode (jobsHeader .brace).text) ∧
      Utf8.decode (Utf8.encode (jobsHeader .brace).text) = (jobsHeader .brace).text ∧
      (jobsTree .brace).namespace? "a.php" = some "App\\Jobs \x7b\nconst LIMIT = 3".toList ∧
      (jobsTree .brace).namespace? "a.php" ≠ some (jobsHeader .brace).name ∧
      (jobsTree .brace).class? "a.php" = some "Run".toList ∧
      (jobsTree .brace).qualifiedClass? "a.php" ≠
        some ((jobsHeader .brace).name ++ '\\' :: "Run".toList) := by
  decide

end PhpAudit.Files
