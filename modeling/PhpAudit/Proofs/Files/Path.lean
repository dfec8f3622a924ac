import PhpAudit.Files.Path

/-!
# Paths as texts

How a path relates to the text that writes it. Texts are joined by a slash in between, and the path
of the whole is that of the parts joined (`join_ofString`). The suffix of a path is what its last
name ends in, unless that is all of the name (`suffix_eq_iff`).
-/

namespace PhpAudit.Files.Path

/-! ## Names between slashes -/

/-- A text always has a first part. -/
theorem splitSlashes_ne_nil (text : List Char) : splitSlashes text ≠ [] := by
  cases text with
  | nil => exact List.cons_ne_nil _ _
  | cons c rest =>
    unfold splitSlashes
    split
    · exact List.cons_ne_nil _ _
    · split <;> exact List.cons_ne_nil _ _

/-- The scan over slashes is the split of the library. -/
theorem splitSlashes_eq_splitOn (text : List Char) : splitSlashes text = text.splitOn '/' := by
  induction text with
  | nil => rfl
  | cons c rest ih =>
    rw [List.splitOn_cons_eq_if_modifyHead, ← ih, splitSlashes]
    by_cases hc : c = '/'
    · rw [if_pos hc, if_pos (beq_iff_eq.mpr hc)]
    · rw [if_neg hc, if_neg (by simpa using hc)]
      cases hs : splitSlashes rest with
      | nil => exact absurd hs (splitSlashes_ne_nil rest)
      | cons first more => rfl

/-- A slash ends a name. -/
theorem namesOf_append (front back : List Char) :
    namesOf (front ++ '/' :: back) = namesOf front ++ namesOf back := by
  unfold namesOf
  rw [splitSlashes_eq_splitOn, splitSlashes_eq_splitOn, splitSlashes_eq_splitOn,
    List.splitOn_append_cons_self, List.filter_append, List.map_append]

/-- What follows a slash has no part in the root, unless nothing but slashes stands in front. -/
theorem rootOf_append {front : List Char} (back : List Char) (hne : front ≠ [])
    (hlast : front.getLast? ≠ some '/') : rootOf (front ++ '/' :: back) = rootOf front := by
  -- the root is decided by the first three characters
  rcases front with _ | ⟨c, _ | ⟨d, _ | ⟨e, front⟩⟩⟩
  · exact absurd rfl hne
  · have hc : c ≠ '/' := by simpa using hlast
    simp [rootOf, hc]
  · have hd : d ≠ '/' := by simpa using hlast
    by_cases hc : c = '/' <;> simp [rootOf, hc, hd]
  · by_cases hc : c = '/' <;> by_cases hd : d = '/' <;> by_cases he : e = '/' <;>
      simp [rootOf, hc, hd, he]

/-- A path has a root iff its text starts with a slash. -/
theorem rootOf_ne_empty (text : List Char) : rootOf text ≠ "" ↔ text.head? = some '/' := by
  unfold rootOf
  split
  · simp
  · simp
  · simp
  · next hrel =>
    simp only [ne_eq, not_true_eq_false, false_iff]
    intro hhead
    obtain ⟨rest, rfl⟩ := List.head?_eq_some_iff.mp hhead
    exact hrel rest rfl

/-- A path is absolute iff its text starts with a slash. -/
theorem isAbsolute_ofString {text : String} :
    (ofString text).isAbsolute = true ↔ text.toList.head? = some '/' := by
  rw [isAbsolute, bne_iff_ne]
  exact rootOf_ne_empty text.toList

/-- A relative text is taken from a directory by writing it behind the directory. -/
theorem join_ofString {directory text : String} (hne : directory ≠ "")
    (hlast : directory.toList.getLast? ≠ some '/') (hrel : text.toList.head? ≠ some '/') :
    join (ofString directory) (ofString text) = ofString (directory ++ "/" ++ text) := by
  have hwhole : (directory ++ "/" ++ text).toList = directory.toList ++ '/' :: text.toList := by
    rw [String.toList_append, String.toList_append, List.append_assoc]
    rfl
  rw [join, if_neg (mt isAbsolute_ofString.mp hrel)]
  unfold ofString
  rw [hwhole, namesOf_append, rootOf_append _ (mt String.toList_eq_nil_iff.mp hne) hlast]

/-! ## Texts of paths -/

/-- A name as paths have it: doubled slashes and dots alone leave none. -/
structure IsPart (name : String) : Prop where
  ne_empty : name ≠ ""
  ne_dot : name ≠ "."
  no_slash : '/' ∉ name.toList

/-- A path that some text writes. -/
structure IsProper (path : Path) : Prop where
  root : path.root = "" ∨ path.root = "/" ∨ path.root = "//"
  parts : ∀ name ∈ path.names, IsPart name

/-- No part between slashes holds one. -/
theorem not_mem_of_mem_splitSlashes {text part : List Char} (h : part ∈ splitSlashes text) :
    '/' ∉ part := by
  induction text generalizing part with
  | nil =>
    rw [splitSlashes, List.mem_singleton] at h
    rw [h]
    exact List.not_mem_nil
  | cons c rest ih =>
    unfold splitSlashes at h
    by_cases hc : c = '/'
    · rw [if_pos hc] at h
      rcases List.mem_cons.mp h with rfl | h
      · exact List.not_mem_nil
      · exact ih h
    · rw [if_neg hc] at h
      cases hs : splitSlashes rest with
      | nil => exact absurd hs (splitSlashes_ne_nil rest)
      | cons first more =>
        rw [hs] at h ih
        rcases List.mem_cons.mp h with rfl | h
        · exact List.not_mem_cons_of_ne_of_not_mem (Ne.symm hc) (ih List.mem_cons_self)
        · exact ih (List.mem_cons_of_mem _ h)

/-- Every path that is read from a text is proper. -/
theorem isProper_ofString (text : String) : (ofString text).IsProper where
  root := by
    change rootOf text.toList = _ ∨ rootOf text.toList = _ ∨ rootOf text.toList = _
    unfold rootOf
    split <;> decide
  parts := by
    intro name hname
    obtain ⟨part, hpart, rfl⟩ := List.mem_map.mp hname
    obtain ⟨hmem, hkept⟩ := List.mem_filter.mp hpart
    simp only [Bool.and_eq_true, bne_iff_ne] at hkept
    have hslash := not_mem_of_mem_splitSlashes hmem
    rw [← String.toList_ofList (l := part)] at hkept hslash
    refine ⟨?_, ?_, hslash⟩
    · intro heq
      exact hkept.1 (congrArg String.toList heq)
    · intro heq
      exact hkept.2 (congrArg String.toList heq)

/-- Proper names may be put below a proper path. -/
theorem IsProper.append {path : Path} {below : List String} (h : path.IsProper)
    (hbelow : ∀ name ∈ below, IsPart name) : IsProper ⟨path.root, path.names ++ below⟩ where
  root := h.root
  parts name hname := (List.mem_append.mp hname).elim (h.parts name) (hbelow name)

/-- Names with slashes in between. -/
def joined (names : List String) : List Char := ['/'].intercalate (names.map String.toList)

/-- A path is printed as its root and its names joined by slashes. -/
theorem toList_text {path : Path} (h : path.root ≠ "" ∨ path.names ≠ []) :
    path.text.toList = path.root.toList ++ joined path.names := by
  have hplace : (path.root.isEmpty && path.names.isEmpty) = false := by
    rw [Bool.and_eq_false_iff]
    exact h.imp (by simp) (by simp)
  rw [text]
  simp only [hplace, Bool.false_eq_true, if_false, String.toList_append, String.toList_intercalate]
  rfl

theorem joined_cons {name : String} {names : List String} (h : names ≠ []) :
    joined (name :: names) = name.toList ++ '/' :: joined names := by
  obtain ⟨next, names, rfl⟩ := List.exists_cons_of_ne_nil h
  unfold joined
  rw [List.map_cons, List.map_cons, List.intercalate_cons_cons, List.append_assoc]
  rfl

/-- Names above and names below are joined by one more slash. -/
theorem joined_append {names below : List String} (h : names ≠ []) (h' : below ≠ []) :
    joined (names ++ below) = joined names ++ '/' :: joined below := by
  induction names with
  | nil => exact absurd rfl h
  | cons name names ih =>
    by_cases hnil : names = []
    · rw [hnil, List.singleton_append, joined_cons h']
      simp [joined]
    · rw [List.cons_append, joined_cons (by simp [hnil]), joined_cons hnil, ih hnil,
        List.append_assoc, List.cons_append]

/-- A character of joined names is a slash or belongs to a name. -/
theorem of_mem_joined {names : List String} {c : Char} (h : c ∈ joined names) :
    c = '/' ∨ ∃ name ∈ names, c ∈ name.toList := by
  induction names with
  | nil => cases h
  | cons name names ih =>
    by_cases hnil : names = []
    · rw [hnil] at h
      exact .inr ⟨name, List.mem_cons_self, by simpa [joined] using h⟩
    · rw [joined_cons hnil, List.mem_append, List.mem_cons] at h
      rcases h with h | rfl | h
      · exact .inr ⟨name, List.mem_cons_self, h⟩
      · exact .inl rfl
      · exact (ih h).imp_right fun ⟨name, hname, hc⟩ => ⟨name, List.mem_cons_of_mem _ hname, hc⟩

/-- Joined proper names do not start with a slash. -/
theorem head?_joined {names : List String} (h : ∀ name ∈ names, IsPart name) :
    (joined names).head? ≠ some '/' := by
  cases names with
  | nil => simp [joined]
  | cons name names =>
    obtain ⟨hne, -, hslash⟩ := h name List.mem_cons_self
    obtain ⟨c, rest, hname⟩ :=
      List.exists_cons_of_ne_nil (mt String.toList_eq_nil_iff.mp hne)
    have hhead : (joined (name :: names)).head? = some c := by
      by_cases hnil : names = []
      · simp [hnil, joined, hname]
      · rw [joined_cons hnil, hname, List.cons_append, List.head?_cons]
    rw [hhead]
    intro heq
    rw [hname, Option.some.inj heq] at hslash
    exact hslash List.mem_cons_self

/-- Proper names that are joined are read back. -/
theorem namesOf_joined {names : List String} (h : ∀ name ∈ names, IsPart name) :
    namesOf (joined names) = names := by
  by_cases hnil : names = []
  · rw [hnil]
    rfl
  · have hslash : ∀ part ∈ names.map String.toList, '/' ∉ part := by
      intro part hpart
      obtain ⟨name, hname, rfl⟩ := List.mem_map.mp hpart
      exact (h name hname).no_slash
    have hkept : ∀ part ∈ names.map String.toList, (part != [] && part != ['.']) = true := by
      intro part hpart
      obtain ⟨name, hname, rfl⟩ := List.mem_map.mp hpart
      rw [Bool.and_eq_true, bne_iff_ne, bne_iff_ne]
      refine ⟨mt String.toList_eq_nil_iff.mp (h name hname).ne_empty, ?_⟩
      intro heq
      exact (h name hname).ne_dot (String.toList_inj.mp heq)
    rw [namesOf, splitSlashes_eq_splitOn, joined,
      List.splitOn_intercalate _ hslash (by simpa using hnil), List.filter_eq_self.mpr hkept,
      List.map_map]
    simp

/-- A root in front of a name is the root of the whole. -/
theorem rootOf_root_append {root : String} (h : root = "" ∨ root = "/" ∨ root = "//")
    {rest : List Char} (hhead : rest.head? ≠ some '/') : rootOf (root.toList ++ rest) = root := by
  rcases rest with _ | ⟨c, rest⟩
  · rcases h with rfl | rfl | rfl <;> decide
  · have hc : c ≠ '/' := by simpa using hhead
    rcases h with rfl | rfl | rfl <;> simp [rootOf, hc]

/-- The root in front of a text adds no names to it. -/
theorem namesOf_root_append {root : String} (h : root = "" ∨ root = "/" ∨ root = "//")
    (rest : List Char) : namesOf (root.toList ++ rest) = namesOf rest := by
  have hslash : ∀ text, namesOf ('/' :: text) = namesOf text := fun text => namesOf_append [] text
  rcases h with rfl | rfl | rfl
  · rfl
  · exact hslash rest
  · exact (hslash _).trans (hslash rest)

/-- A path is what its text writes. -/
theorem ofString_text {path : Path} (h : path.IsProper) : ofString path.text = path := by
  by_cases hplace : path.root = "" ∧ path.names = []
  · obtain ⟨root, names⟩ := path
    obtain ⟨rfl, rfl⟩ := hplace
    decide +kernel
  · unfold ofString
    rw [toList_text (Classical.not_and_iff_not_or_not.mp hplace),
      rootOf_root_append h.root (head?_joined h.parts), namesOf_root_append h.root,
      namesOf_joined h.parts]

/-- The text of a path below another: that path, a slash and the names below. -/
theorem text_append {path : Path} {below : List String} (hne : path.names ≠ [])
    (hbelow : below ≠ []) : (⟨path.root, path.names ++ below⟩ : Path).text.toList =
      path.text.toList ++ '/' :: joined below := by
  rw [toList_text (.inr (by simp [hne])), toList_text (.inr hne), joined_append hne hbelow,
    List.append_assoc]

/-! ## Spellings -/

theorem intercalate_cons {sep part : List Char} {parts : List (List Char)} (h : parts ≠ []) :
    sep.intercalate (part :: parts) = part ++ sep ++ sep.intercalate parts := by
  obtain ⟨next, parts, rfl⟩ := List.exists_cons_of_ne_nil h
  exact List.intercalate_cons_cons

/-- Fewer parts between separators make a shorter text, in the same order. -/
theorem intercalate_sublist {front back : List (List Char)} (h : front.Sublist back)
    (sep : List Char) : (sep.intercalate front).Sublist (sep.intercalate back) := by
  induction h with
  | slnil => exact .refl _
  | @cons front back part hsub ih =>
    by_cases hback : back = []
    · rw [hback, List.sublist_nil] at hsub
      rw [hsub]
      exact List.nil_sublist _
    · rw [intercalate_cons hback]
      exact ih.trans (List.sublist_append_right _ _)
  | @cons_cons front back part hsub ih =>
    by_cases hback : back = []
    · rw [hback, List.sublist_nil] at hsub
      obtain rfl := hsub.trans hback.symm
      exact .refl _
    · rw [intercalate_cons hback]
      by_cases hfront : front = []
      · rw [hfront, List.intercalate_singleton, List.append_assoc]
        exact List.sublist_append_left _ _
      · rw [intercalate_cons hfront]
        exact ih.append_left _

/-- Each character of a name is one of the joined names. -/
theorem mem_joined_of_mem {names : List String} {name : String} (h : name ∈ names) {c : Char}
    (hc : c ∈ name.toList) : c ∈ joined names := by
  have hmem : name.toList ∈ names.map String.toList := List.mem_map_of_mem h
  have hsub := intercalate_sublist (List.singleton_sublist.mpr hmem) ['/']
  rw [List.intercalate_singleton] at hsub
  exact hsub.subset hc

/-- The joined names of a text leave out characters of it and add none. -/
theorem joined_namesOf_sublist (text : List Char) : (joined (namesOf text)).Sublist text := by
  have hnames : (namesOf text).map String.toList =
      (splitSlashes text).filter fun part => part != [] && part != ['.'] := by
    simp [namesOf]
  have htext : ['/'].intercalate (splitSlashes text) = text := by
    rw [splitSlashes_eq_splitOn, List.intercalate_splitOn]
  calc (joined (namesOf text)).Sublist (['/'].intercalate (splitSlashes text)) := by
        rw [joined, hnames]
        exact intercalate_sublist List.filter_sublist _
    _ = text := htext

/-- A text is its root and a rest that holds all its names. -/
theorem eq_rootOf_append (text : List Char) :
    ∃ rest, text = (rootOf text).toList ++ rest ∧ namesOf text = namesOf rest := by
  have hslash : ∀ text, namesOf ('/' :: text) = namesOf text := fun text => namesOf_append [] text
  unfold rootOf
  split
  · exact ⟨_, rfl, hslash _⟩
  · exact ⟨_, rfl, (hslash _).trans (hslash _)⟩
  · exact ⟨_, rfl, hslash _⟩
  · exact ⟨text, rfl, rfl⟩

/-- Where nothing is left of a text but a name that does not count, that is a dot. -/
theorem dot_mem_of_namesOf_eq_nil {text : List Char} (hne : text ≠ []) (hroot : rootOf text = "")
    (hnames : namesOf text = []) : '.' ∈ text := by
  cases text with
  | nil => exact absurd rfl hne
  | cons c rest =>
    have hc : c ≠ '/' := by
      rintro rfl
      exact (rootOf_ne_empty _).mpr rfl hroot
    rw [namesOf, List.map_eq_nil_iff, List.filter_eq_nil_iff] at hnames
    cases hs : splitSlashes rest with
    | nil => exact absurd hs (splitSlashes_ne_nil rest)
    | cons first more =>
      have hmem : (c :: first) ∈ splitSlashes (c :: rest) := by
        simp only [splitSlashes, if_neg hc, hs]
        exact List.mem_cons_self
      have hdot : c = '.' := by
        have := hnames _ hmem
        simp only [Bool.and_eq_true, bne_iff_ne, ne_eq, reduceCtorEq, not_false_eq_true, true_and,
          Classical.not_not] at this
        exact (List.cons.inj this).1
      rw [hdot]
      exact List.mem_cons_self

/-- A path's text leaves out some of what wrote the path, and changes nothing. -/
theorem text_ofString_sublist {text : String} (hne : text ≠ "") :
    (ofString text).text.toList.Sublist text.toList := by
  by_cases hplace : (ofString text).root = "" ∧ (ofString text).names = []
  · have hdot := dot_mem_of_namesOf_eq_nil (mt String.toList_eq_nil_iff.mp hne) hplace.1 hplace.2
    have htext : (ofString text).text = "." := by
      rw [Path.text, hplace.1, hplace.2]
      rfl
    rw [htext]
    exact List.singleton_sublist.mpr hdot
  · obtain ⟨rest, htext, hnames⟩ := eq_rootOf_append text.toList
    have hsub := (joined_namesOf_sublist rest).append_left (rootOf text.toList).toList
    rw [← htext, ← hnames] at hsub
    rw [toList_text (Classical.not_and_iff_not_or_not.mp hplace)]
    exact hsub

/-- What a text ends in stays at the end, unless it is a slash or a dot. -/
theorem splitSlashes_concat (text : List Char) {c : Char} (hc : c ≠ '/') :
    ∃ parts part, splitSlashes (text ++ [c]) = parts ++ [part ++ [c]] := by
  induction text with
  | nil => exact ⟨[], [], by simp [splitSlashes, hc]⟩
  | cons d text ih =>
    obtain ⟨parts, part, heq⟩ := ih
    rw [List.cons_append]
    unfold splitSlashes
    rw [heq]
    by_cases hd : d = '/'
    · rw [if_pos hd]
      exact ⟨[] :: parts, part, rfl⟩
    · rw [if_neg hd]
      cases parts with
      | nil => exact ⟨[], d :: part, rfl⟩
      | cons first more => exact ⟨(d :: first) :: more, part, rfl⟩

/-- A last character other than a slash and a dot ends the last name. -/
theorem namesOf_concat (text : List Char) {c : Char} (hslash : c ≠ '/') (hdot : c ≠ '.') :
    ∃ names part, namesOf (text ++ [c]) = names ++ [String.ofList (part ++ [c])] := by
  obtain ⟨parts, part, heq⟩ := splitSlashes_concat text hslash
  have hkept : (part ++ [c] != [] && part ++ [c] != ['.']) = true := by
    rw [Bool.and_eq_true, bne_iff_ne, bne_iff_ne]
    refine ⟨by simp, ?_⟩
    intro hpart
    have hlast := congrArg List.getLast? hpart
    rw [List.getLast?_concat, List.getLast?_singleton, Option.some.injEq] at hlast
    exact hdot hlast
  refine ⟨(parts.filter fun part => part != [] && part != ['.']).map String.ofList, part, ?_⟩
  simp only [namesOf, heq, List.filter_append, List.filter_cons, hkept, if_true, List.filter_nil,
    List.map_append, List.map_singleton]

/-- A path keeps such a last character when it is read and printed. -/
theorem getLast?_text_ofString {text : String} {c : Char} (h : text.toList.getLast? = some c)
    (hslash : c ≠ '/') (hdot : c ≠ '.') :
    (ofString text).names ≠ [] ∧ (ofString text).text.toList.getLast? = some c := by
  obtain ⟨front, hfront⟩ := List.getLast?_eq_some_iff.mp h
  obtain ⟨names, part, hnames⟩ := namesOf_concat front hslash hdot
  have hnames : (ofString text).names = names ++ [String.ofList (part ++ [c])] := by
    rw [← hnames, ← hfront]
    rfl
  have hne : (ofString text).names ≠ [] := by simp [hnames]
  have hjoined : ∃ front, joined (ofString text).names = front ++ [c] := by
    rw [hnames]
    by_cases hnil : names = []
    · exact ⟨part, by simp [hnil, joined]⟩
    · rw [joined_append hnil (List.cons_ne_nil _ _)]
      exact ⟨joined names ++ '/' :: part, by simp [joined]⟩
  obtain ⟨front, hjoined⟩ := hjoined
  refine ⟨hne, ?_⟩
  rw [toList_text (.inr hne), hjoined, ← List.append_assoc, List.getLast?_concat]

/-- Slashes at the end write nothing, as long as something stands in front of them. -/
theorem ofString_append_slashes {front : String} (hne : front ≠ "")
    (hlast : front.toList.getLast? ≠ some '/') (count : Nat) :
    ofString (String.ofList (front.toList ++ List.replicate count '/')) = ofString front := by
  cases count with
  | zero => rw [List.replicate_zero, List.append_nil, String.ofList_toList]
  | succ count =>
    have hslashes : namesOf (List.replicate count '/') = [] := by
      induction count with
      | zero => rfl
      | succ count ih => exact (namesOf_append [] _).trans ih
    unfold ofString
    rw [String.toList_ofList, List.replicate_succ, namesOf_append, hslashes, List.append_nil,
      rootOf_append _ (mt String.toList_eq_nil_iff.mp hne) hlast]

/-! ## Suffixes -/

/-- A suffix is what a name ends in from its last dot on, unless the name starts there. -/
theorem suffixOf_eq_iff {name extension : List Char} (hne : extension ≠ [])
    (hdot : '.' ∉ extension) :
    suffixOf name = '.' :: extension ↔ ∃ stem, stem ≠ [] ∧ name = stem ++ '.' :: extension := by
  constructor
  · intro h
    unfold suffixOf at h
    dsimp only at h
    split at h
    · cases h
    · next hlong =>
      simp only [Bool.or_eq_true, decide_eq_true_eq, not_or] at hlong
      -- the last dot splits the name, and the guards say that neither part is empty
      have hcut := List.takeWhile_append_dropWhile (p := (· != '.')) (l := name.reverse)
      have hlength := congrArg List.length hcut
      rw [List.length_append, List.length_reverse] at hlength
      cases hrest : name.reverse.dropWhile (· != '.') with
      | nil =>
        rw [hrest, List.length_nil] at hlength
        omega
      | cons c rest =>
        have hc := List.head?_dropWhile_not (· != '.') name.reverse
        rw [hrest] at hc hcut hlength
        have hc : c = '.' := by simpa using hc
        refine ⟨rest.reverse, ?_, ?_⟩
        · rintro hnil
          rw [List.reverse_eq_nil_iff.mp hnil, List.length_singleton] at hlength
          omega
        · rw [← List.reverse_reverse name, ← hcut, List.reverse_append, (List.cons.inj h).2, hc,
            List.reverse_cons, List.append_assoc, List.singleton_append]
  · rintro ⟨stem, hstem, rfl⟩
    have hbehind : (stem ++ '.' :: extension).reverse.takeWhile (· != '.') = extension.reverse := by
      rw [List.reverse_append, List.reverse_cons, List.append_assoc,
        List.takeWhile_append_of_pos, List.singleton_append, List.takeWhile_cons_of_neg,
        List.append_nil]
      · decide
      · intro c hc
        exact bne_iff_ne.mpr fun heq => hdot (heq ▸ List.mem_reverse.mp hc)
    have hlength := List.length_pos_iff.mpr hstem
    unfold suffixOf
    dsimp only
    rw [hbehind, if_neg, List.reverse_reverse]
    simp only [Bool.or_eq_true, List.isEmpty_iff, List.reverse_eq_nil_iff, hne, false_or,
      decide_eq_true_eq, List.length_append, List.length_cons, List.length_reverse]
    omega

/-- A path has a suffix iff its name is a non-empty stem and that suffix. -/
theorem suffix_eq_iff {path : Path} {text : String} {extension : List Char}
    (htext : text.toList = '.' :: extension) (hne : extension ≠ []) (hdot : '.' ∉ extension) :
    path.suffix = text ↔ ∃ stem, stem ≠ "" ∧ path.name = stem ++ text := by
  rw [suffix, ← String.toList_inj, String.toList_ofList, htext, suffixOf_eq_iff hne hdot]
  constructor
  · rintro ⟨stem, hstem, hname⟩
    refine ⟨String.ofList stem, ?_, ?_⟩
    · rwa [ne_eq, ← String.toList_eq_nil_iff, String.toList_ofList]
    · rw [← String.toList_inj, hname, String.toList_append, String.toList_ofList, htext]
  · rintro ⟨stem, hstem, hname⟩
    refine ⟨stem.toList, mt String.toList_eq_nil_iff.mp hstem, ?_⟩
    rw [hname, String.toList_append, htext]

end PhpAudit.Files.Path
