import Mathlib.Data.List.Nodup
import PhpAudit.Files.Tree
import PhpAudit.Proofs.Files.Order
import PhpAudit.Proofs.Files.Path

/-!
# File systems

A tree is a file system when its entries do not contradict one another (`IsSystem`): each is listed
once, under names that can be names of files, and nothing is below a file. In a file system the
files below a directory, as a walk over the entries lists them, are exactly those that a path leads
to when it goes on from the directory (`mem_filesBelow`). Listings of files (`Lists`) are defined by
what stands under paths alone, so nothing hangs on the order of the entries (`entry?_perm`).
-/

namespace PhpAudit.Files

/-- A name that a file or a directory can have. -/
structure IsName (name : String) : Prop extends Path.IsPart name where
  ne_dots : name ≠ ".."

instance : DecidablePred IsName := fun name =>
  decidable_of_iff ((name ≠ "" ∧ name ≠ "." ∧ '/' ∉ name.toList) ∧ name ≠ "..")
    ⟨fun ⟨⟨ne_empty, ne_dot, no_slash⟩, ne_dots⟩ => ⟨⟨ne_empty, ne_dot, no_slash⟩, ne_dots⟩,
      fun ⟨⟨ne_empty, ne_dot, no_slash⟩, ne_dots⟩ => ⟨⟨ne_empty, ne_dot, no_slash⟩, ne_dots⟩⟩

/-- A way upwards from the working directory, or to the root. -/
def IsAscent (names : List String) : Prop :=
  names = ["/"] ∨ ∃ count, names = List.replicate count ".."

namespace Tree

/-- A tree whose entries are those of a file system. -/
structure IsSystem (tree : Tree) : Prop where
  nodup : (tree.entries.map Prod.fst).Nodup
  /-- Entries lie under names, on a way that leads upwards or to the root first. -/
  named : ∀ entry ∈ tree.entries, ∃ up down, entry.1 = up ++ down ∧ IsAscent up ∧
    ∀ name ∈ down, IsName name
  /-- Nothing is below a file. -/
  apart : ∀ names content readable, (names, .file content readable) ∈ tree.entries →
    ∀ entry ∈ tree.entries, names <+: entry.1 → entry.1 = names

variable {tree : Tree}

/-- Entries below the working directory, of which none is below another one, are a file system. -/
theorem isSystem_of_isName (nodup : (tree.entries.map Prod.fst).Nodup)
    (named : ∀ entry ∈ tree.entries, ∀ name ∈ entry.1, IsName name)
    (apart : ∀ entry ∈ tree.entries, ∀ other ∈ tree.entries,
      entry.1 <+: other.1 → other.1 = entry.1) : tree.IsSystem where
  nodup := nodup
  named entry hentry := ⟨[], entry.1, rfl, .inr ⟨0, rfl⟩, named entry hentry⟩
  apart _ _ _ hfile entry hentry := apart _ hfile entry hentry

/-! ## Single entries -/

/-- What is found under a name is an entry of the tree. -/
theorem mem_of_find? {names : List String} {found : List String × Entry}
    (h : tree.entries.find? (fun entry => entry.1 == names) = some found) :
    (names, found.2) ∈ tree.entries := by
  have hkey := List.find?_some h
  simp only [beq_iff_eq] at hkey
  rw [← hkey]
  exact List.mem_of_find?_eq_some h

/-- Where no name occurs twice, each entry is found under its name. -/
theorem lookup?_of_mem (hnodup : (tree.entries.map Prod.fst).Nodup) {names : List String}
    {entry : Entry} (h : (names, entry) ∈ tree.entries) : tree.lookup? names = some entry := by
  have hsome : (tree.entries.find? fun entry => entry.1 == names).isSome := by
    rw [List.find?_isSome]
    exact ⟨_, h, beq_self_eq_true names⟩
  obtain ⟨found, hfound⟩ := Option.isSome_iff_exists.mp hsome
  have heq := List.inj_on_of_nodup_map hnodup (mem_of_find? hfound) h rfl
  simp only [lookup?, hfound, (Prod.mk.inj heq).2]

/-- A file is found under its names iff it is an entry. -/
theorem lookup?_eq_file (hnodup : (tree.entries.map Prod.fst).Nodup) {names : List String}
    {content : List UInt8} {readable : Bool} :
    tree.lookup? names = some (.file content readable) ↔
      (names, .file content readable) ∈ tree.entries := by
  constructor
  · intro h
    unfold lookup? at h
    split at h
    · next found hfound =>
      rw [← Option.some.inj h]
      exact mem_of_find? hfound
    · split at h <;> cases h
  · exact lookup?_of_mem hnodup

/-- What stands on the way to an entry is a directory. -/
theorem IsSystem.lookup?_above (h : tree.IsSystem) {names below : List String} {entry : Entry}
    (hmem : (names ++ below, entry) ∈ tree.entries) (hbelow : below ≠ []) :
    tree.lookup? names = some .directory := by
  unfold lookup?
  split
  · next found hfound =>
    have hlisted := mem_of_find? hfound
    cases hentry : found.2 with
    | directory => rfl
    | file content readable =>
      rw [hentry] at hlisted
      have hsame := h.apart _ _ _ hlisted _ hmem (List.prefix_append names below)
      exact absurd (List.append_right_eq_self.mp hsame) hbelow
  · have hfront : tree.hasPrefix names = true := by
      unfold hasPrefix
      rw [Bool.or_eq_true, List.any_eq_true]
      exact .inr ⟨_, hmem, List.isPrefixOf_iff_prefix.mpr (List.prefix_append names below)⟩
    rw [if_pos hfront]

/-! ## Following names -/

/-- A way is followed to its middle and from there to its end. -/
theorem follow_append (here front rest : List String) :
    tree.follow here (front ++ rest) =
      (tree.follow here front).bind fun there => tree.follow there rest := by
  induction front generalizing here with
  | nil => rfl
  | cons name front ih =>
    rw [List.cons_append, follow, follow]
    cases hhere : tree.lookup? here with
    | none => rfl
    | some entry =>
      cases entry with
      | file => rfl
      | directory =>
        by_cases hname : name = ".."
        · simp only [if_pos hname, ih]
        · simp only [if_neg hname, ih]

/-- Names that lead downwards lead nowhere else. -/
theorem follow_down {here below there : List String} (hdown : ".." ∉ below)
    (h : tree.follow here below = some there) : there = here ++ below := by
  induction below generalizing here with
  | nil =>
    rw [follow, Option.some.injEq] at h
    rw [List.append_nil, h]
  | cons name below ih =>
    have hname : name ≠ ".." := fun heq => hdown (heq ▸ List.mem_cons_self)
    rw [follow] at h
    split at h
    · rw [if_neg hname] at h
      rw [ih (fun hmem => hdown (List.mem_cons_of_mem _ hmem)) h, List.append_assoc,
        List.singleton_append]
    · cases h

/-- The way down to an entry leads to it. -/
theorem IsSystem.follow_of_mem (h : tree.IsSystem) {here below : List String} {entry : Entry}
    (hdown : ".." ∉ below) (hmem : (here ++ below, entry) ∈ tree.entries) :
    tree.follow here below = some (here ++ below) := by
  induction below generalizing here with
  | nil => rw [follow, List.append_nil]
  | cons name below ih =>
    have hname : name ≠ ".." := fun heq => hdown (heq ▸ List.mem_cons_self)
    have hnext : here ++ name :: below = (here ++ [name]) ++ below := by
      rw [List.append_assoc, List.singleton_append]
    rw [follow, h.lookup?_above hmem (List.cons_ne_nil _ _)]
    simp only [if_neg hname]
    rw [ih (fun hmem => hdown (List.mem_cons_of_mem _ hmem)) (hnext ▸ hmem), hnext]

/-! ## Files below a directory -/

/-- A path is a file iff its way leads to one. -/
theorem isFile_iff {path : Path} : tree.isFile path = true ↔
    ∃ names content readable, tree.follow (start path) path.names = some names ∧
      tree.lookup? names = some (.file content readable) := by
  unfold isFile entry?
  constructor
  · intro h
    split at h
    · next content readable hentry =>
      obtain ⟨names, hnames, hlookup⟩ := Option.bind_eq_some_iff.mp hentry
      exact ⟨names, content, readable, hnames, hlookup⟩
    · cases h
  · rintro ⟨names, content, readable, hnames, hlookup⟩
    rw [hnames, Option.bind_some, hlookup]

/-- Names lead down when none goes up and none is the root. -/
theorem leadDown_iff {below : List String} :
    leadDown below = true ↔ ".." ∉ below ∧ "/" ∉ below := by
  simp only [leadDown, Bool.and_eq_true, Bool.not_eq_true', List.contains_eq_mem,
    decide_eq_false_iff_not]

/-- The names below a directory that an entry contributes are the rest of its own. -/
theorem eq_append_of_below {directory names below : List String} {entry : Entry}
    (h : (match entry with
      | .file .. =>
        if directory.isPrefixOf names && !(names.drop directory.length).isEmpty &&
          leadDown (names.drop directory.length) then some (names.drop directory.length) else none
      | .directory => none) = some below) :
    names = directory ++ below ∧ below ≠ [] ∧ leadDown below = true ∧
      ∃ content readable, entry = .file content readable := by
  cases entry with
  | directory => cases h
  | file content readable =>
    simp only [Option.ite_none_right_eq_some, Option.some.injEq, Bool.and_eq_true,
      Bool.not_eq_true', List.isEmpty_eq_false_iff, List.isPrefixOf_iff_prefix] at h
    obtain ⟨⟨⟨hfront, hne⟩, hdown⟩, rfl⟩ := h
    exact ⟨(List.prefix_iff_eq_append.mp hfront).symm, hne, hdown, content, readable, rfl⟩

/-- The names below a directory are those of the files under it. -/
theorem mem_namesBelow {directory below : List String} :
    below ∈ tree.namesBelow directory ↔ below ≠ [] ∧ leadDown below = true ∧
      ∃ content readable, (directory ++ below, .file content readable) ∈ tree.entries := by
  unfold namesBelow
  rw [List.mem_filterMap]
  constructor
  · rintro ⟨⟨names, entry⟩, hmem, h⟩
    obtain ⟨rfl, hne, hdown, content, readable, rfl⟩ := eq_append_of_below h
    exact ⟨hne, hdown, content, readable, hmem⟩
  · rintro ⟨hne, hdown, content, readable, hmem⟩
    refine ⟨_, hmem, ?_⟩
    simp only [List.drop_left, List.isPrefixOf_iff_prefix.mpr (List.prefix_append directory below),
      hdown, List.isEmpty_eq_false_iff.mpr hne, Bool.not_false, Bool.and_self, if_true]

/-- No file is named twice below a directory. -/
theorem nodup_namesBelow (hnodup : (tree.entries.map Prod.fst).Nodup) (directory : List String) :
    (tree.namesBelow directory).Nodup := by
  unfold namesBelow
  rw [List.Nodup, List.pairwise_filterMap]
  refine (List.pairwise_map.mp hnodup).imp ?_
  rintro ⟨names, entry⟩ ⟨names', entry'⟩ hne below hbelow below' hbelow' rfl
  have hnames := (eq_append_of_below hbelow).1
  have hnames' := (eq_append_of_below hbelow').1
  exact hne (hnames.trans hnames'.symm)

/-- Names below a directory of a file system are names of files and directories. -/
theorem IsSystem.isName_of_leadDown (h : tree.IsSystem) {directory below : List String}
    {entry : Entry} (hmem : (directory ++ below, entry) ∈ tree.entries)
    (hdown : leadDown below = true) : ∀ name ∈ below, IsName name := by
  intro name hname
  obtain ⟨hdots, hslash⟩ := leadDown_iff.mp hdown
  obtain ⟨up, down, heq, hup, hnames⟩ := h.named _ hmem
  have hmem : name ∈ up ++ down := by
    rw [← heq]
    exact List.mem_append_right _ hname
  rcases List.mem_append.mp hmem with hascent | hdescent
  · rcases hup with rfl | ⟨count, rfl⟩
    · exact absurd (List.mem_singleton.mp hascent ▸ hname) hslash
    · exact absurd ((List.mem_replicate.mp hascent).2 ▸ hname) hdots
  · exact hnames name hdescent

/-- Plain names lead down. -/
theorem leadDown_of_isName {below : List String} (h : ∀ name ∈ below, IsName name) :
    leadDown below = true := by
  rw [leadDown_iff]
  constructor
  · intro hmem
    exact (h _ hmem).ne_dots rfl
  · intro hmem
    exact (h _ hmem).no_slash (by decide)

end Tree

/-- A path leads below another one: it goes on with names of files and directories. -/
def Path.IsBelow (path file : Path) : Prop :=
  ∃ below, below ≠ [] ∧ (∀ name ∈ below, IsName name) ∧
    file = ⟨path.root, path.names ++ below⟩

namespace Tree

variable {tree : Tree}

/-- A path starts where its front starts. -/
theorem start_append (path : Path) (below : List String) :
    start ⟨path.root, path.names ++ below⟩ = start path := rfl

/-- The files below a directory are those that a path leads to when it goes on from there. -/
theorem IsSystem.mem_filesBelow (h : tree.IsSystem) {path file : Path} :
    file ∈ tree.filesBelow path ↔ path.IsBelow file ∧ tree.isFile file = true := by
  unfold filesBelow
  constructor
  · intro hmem
    split at hmem
    · next directory hdirectory =>
      -- the entry's own names are followed behind those of the path
      obtain ⟨below, hbelow, rfl⟩ := List.mem_map.mp hmem
      obtain ⟨hne, hdown, content, readable, hlisted⟩ := mem_namesBelow.mp (List.mem_mergeSort.mp hbelow)
      have hnames := h.isName_of_leadDown hlisted hdown
      refine ⟨⟨below, hne, hnames, rfl⟩, ?_⟩
      rw [isFile_iff]
      refine ⟨directory ++ below, content, readable, ?_, lookup?_of_mem h.nodup hlisted⟩
      rw [start_append, follow_append, hdirectory, Option.bind_some]
      exact h.follow_of_mem (fun hmem => (hnames _ hmem).ne_dots rfl) hlisted
    · cases hmem
  · rintro ⟨⟨below, hne, hnames, rfl⟩, hfile⟩
    obtain ⟨there, content, readable, hfollow, hlookup⟩ := isFile_iff.mp hfile
    rw [start_append, follow_append] at hfollow
    obtain ⟨directory, hdirectory, hbelow⟩ := Option.bind_eq_some_iff.mp hfollow
    have hthere := follow_down (fun hmem => (hnames _ hmem).ne_dots rfl) hbelow
    rw [hdirectory]
    apply List.mem_map_of_mem
    rw [List.mem_mergeSort, mem_namesBelow]
    refine ⟨hne, leadDown_of_isName hnames, content, readable, ?_⟩
    rw [← hthere]
    exact (lookup?_eq_file h.nodup).mp hlookup

/-- The files below a directory come in the order of the names that lead to them. -/
theorem IsSystem.pairwise_filesBelow (h : tree.IsSystem) (path : Path) :
    (tree.filesBelow path).Pairwise fun f g => f.names < g.names := by
  unfold filesBelow
  split
  · next directory _ =>
    rw [List.pairwise_map]
    refine (pairwise_lt_mergeSort (nodup_namesBelow h.nodup directory)).imp ?_
    intro below below' hlt
    exact List.append_left_lt hlt
  · exact .nil

/-- Where the entries come in the order of their names, so do the files below a directory. -/
theorem filesBelow_of_pairwise {path : Path} {directory : List String} {names : List (List String)}
    (hdirectory : tree.follow (start path) path.names = some directory)
    (hbelow : tree.namesBelow directory = names)
    (hsorted : names.Pairwise fun below below' => namesLE below below' = true) :
    tree.filesBelow path = names.map fun below => ⟨path.root, path.names ++ below⟩ := by
  unfold filesBelow
  simp only [hdirectory, hbelow, List.mergeSort_of_pairwise hsorted]

/-! ## The order of the entries -/

section Listing

variable {other : Tree} (hperm : tree.entries.Perm other.entries)
  (hnodup : (tree.entries.map Prod.fst).Nodup)
include hperm hnodup

/-- What is found under names does not depend on the order of the entries. -/
theorem lookup?_perm (names : List String) : tree.lookup? names = other.lookup? names := by
  cases hfind : tree.entries.find? (fun entry => entry.1 == names) with
  | some found =>
    have hmem := mem_of_find? hfind
    rw [lookup?_of_mem hnodup hmem,
      lookup?_of_mem ((hperm.map _).nodup_iff.mp hnodup) (hperm.mem_iff.mp hmem)]
  | none =>
    have hother : other.entries.find? (fun entry => entry.1 == names) = none := by
      rw [List.find?_eq_none] at hfind ⊢
      intro entry hmem
      exact hfind entry (hperm.mem_iff.mpr hmem)
    unfold lookup? hasPrefix
    rw [hfind, hother, hperm.any_eq]

/-- Where a way leads does not depend on the order of the entries. -/
theorem follow_perm (here names : List String) :
    tree.follow here names = other.follow here names := by
  induction names generalizing here with
  | nil => rfl
  | cons name names ih => simp only [follow, lookup?_perm hperm hnodup, ih]

/-- What a path denotes does not depend on the order of the entries. -/
theorem entry?_perm (path : Path) : tree.entry? path = other.entry? path := by
  unfold entry?
  rw [follow_perm hperm hnodup]
  exact congrArg _ (funext (lookup?_perm hperm hnodup))

omit hperm hnodup in
/-- The entries of a file system are one in every order. -/
theorem IsSystem.perm (h : tree.IsSystem) (hperm : tree.entries.Perm other.entries) :
    other.IsSystem where
  nodup := (hperm.map _).nodup_iff.mp h.nodup
  named entry hmem := h.named entry (hperm.mem_iff.mpr hmem)
  apart names content readable hfile entry hmem :=
    h.apart names content readable (hperm.mem_iff.mpr hfile) entry (hperm.mem_iff.mpr hmem)

end Listing

/-! ## Listings -/

/-- The files at a path: itself if it is one, all below it by their names if it is a directory. -/
inductive Lists (tree : Tree) (path : Path) : List Path → Prop where
  | file : tree.isFile path = true → Lists tree path [path]
  | directory {found : List Path} : tree.isDirectory path = true →
      (∀ file, file ∈ found ↔ path.IsBelow file ∧ tree.isFile file = true) →
      (found.Pairwise fun f g => f.names < g.names) → Lists tree path found
  | nothing : tree.isFile path = false → tree.isDirectory path = false → Lists tree path []

/-- A file is no directory. -/
theorem isDirectory_eq_false_of_isFile {path : Path} (h : tree.isFile path = true) :
    tree.isDirectory path = false := by
  unfold isFile at h
  unfold isDirectory
  split at h
  · next hentry => rw [hentry]
  · cases h

/-- Files that are listed by their names are determined by which ones there are. -/
theorem eq_of_pairwise_names {found found' : List Path}
    (hsorted : found.Pairwise fun f g => f.names < g.names)
    (hsorted' : found'.Pairwise fun f g => f.names < g.names)
    (hmem : ∀ file, file ∈ found ↔ file ∈ found') : found = found' := by
  have hne : ∀ f g : Path, f.names < g.names → f ≠ g := by
    rintro f _ hlt rfl
    exact lt_irrefl _ hlt
  refine List.Perm.eq_of_pairwise ?_ hsorted hsorted' ?_
  · intro f g _ _ hlt hgt
    exact absurd hgt (lt_asymm hlt)
  · exact (List.perm_ext_iff_of_nodup (hsorted.imp (hne _ _)) (hsorted'.imp (hne _ _))).mpr hmem

/-- A path lists one sequence of files at most. -/
theorem Lists.unique {path : Path} {found found' : List Path} (h : Lists tree path found)
    (h' : Lists tree path found') : found = found' := by
  cases h with
  | file hfile =>
    cases h' with
    | file => rfl
    | directory hdirectory =>
      rw [isDirectory_eq_false_of_isFile hfile] at hdirectory
      cases hdirectory
    | nothing hnone => exact absurd (hfile.symm.trans hnone) (by decide)
  | directory hdirectory hmem hsorted =>
    cases h' with
    | file hfile =>
      rw [isDirectory_eq_false_of_isFile hfile] at hdirectory
      cases hdirectory
    | directory _ hmem' hsorted' =>
      apply eq_of_pairwise_names hsorted hsorted'
      intro file
      rw [hmem, hmem']
    | nothing _ hnone => exact absurd (hdirectory.symm.trans hnone) (by decide)
  | nothing hnone hnone' =>
    cases h' with
    | file hfile => exact absurd (hfile.symm.trans hnone) (by decide)
    | directory hdirectory => exact absurd (hdirectory.symm.trans hnone') (by decide)
    | nothing => rfl

/-- Listings only ask what stands under paths. -/
theorem Lists.congr {other : Tree} (hentry : ∀ path, tree.entry? path = other.entry? path)
    {path : Path} {found : List Path} (h : Lists tree path found) : Lists other path found := by
  have hfile : ∀ path, tree.isFile path = other.isFile path := by
    intro path
    rw [isFile, isFile, hentry]
  have hdirectory : ∀ path, tree.isDirectory path = other.isDirectory path := by
    intro path
    rw [isDirectory, isDirectory, hentry]
  cases h with
  | file h => exact .file (hfile path ▸ h)
  | directory h hmem hsorted =>
    refine .directory (hdirectory path ▸ h) ?_ hsorted
    intro file
    rw [hmem, hfile]
  | nothing h h' => exact .nothing (hfile path ▸ h) (hdirectory path ▸ h')

end Tree

end PhpAudit.Files
