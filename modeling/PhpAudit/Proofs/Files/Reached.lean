import Mathlib.Algebra.Order.BigOperators.Group.List
import Mathlib.Data.List.Dedup
import PhpAudit.Proofs.Files.Tree

/-!
# Where relative paths lead

Names may lead down into directories and up again, so that it takes directories on the way to follow
them. `reached` has them all there: a file system (`isSystem_reached`) in which a relative path leads
to a directory (`follow_reached`), however much it wanders, with a file in it that is named like
nothing on the way. So paths with different names are told apart by what is found at them.
-/

namespace PhpAudit.Files.Tree

/-! ## The way -/

/-- Where one more name leads from a directory. -/
def next (here : List String) (name : String) : List String :=
  if name = ".." then above here else here ++ [name]

/-- The directories on the way from one along some names, with both ends. -/
def passed (here : List String) : List String → List (List String)
  | [] => [here]
  | name :: rest => here :: passed (next here name) rest

/-- Names lead to the end of the way, if there are directories all along. -/
theorem follow_of_passed {tree : Tree} {here names : List String}
    (h : ∀ place ∈ passed here names, tree.lookup? place = some .directory) :
    tree.follow here names = some (names.foldl next here) := by
  induction names generalizing here with
  | nil => rfl
  | cons name rest ih =>
    obtain ⟨hhere, hrest⟩ := List.forall_mem_cons.mp h
    rw [follow, hhere, List.foldl_cons, ← ih hrest, next]
    by_cases hname : name = ".."
    · simp only [if_pos hname]
    · simp only [if_neg hname]

/-- The end of a way is one of the places it passes. -/
theorem foldl_next_mem_passed (here names : List String) :
    names.foldl next here ∈ passed here names := by
  induction names generalizing here with
  | nil => exact List.mem_cons_self
  | cons name rest ih => exact List.mem_cons_of_mem _ (ih (next here name))

/-- A directory that some names can lead to: so many above the working directory, and then down by
names among them. -/
def IsWay (names place : List String) : Prop :=
  ∃ count down, place = List.replicate count ".." ++ down ∧
    ∀ name ∈ down, IsName name ∧ name ∈ names

/-- One step up from a way is a way. -/
theorem isWay_above {names place : List String} (h : IsWay names place) :
    IsWay names (above place) := by
  obtain ⟨count, down, rfl, hdown⟩ := h
  unfold above
  rcases List.eq_nil_or_concat down with rfl | ⟨front, name, rfl⟩
  · rw [List.append_nil]
    cases count with
    | zero => exact ⟨1, [], rfl, nofun⟩
    | succ count =>
      refine ⟨count + 2, [], ?_, nofun⟩
      rw [List.replicate_succ', List.getLast?_concat]
      simp only [if_true, List.append_nil, List.replicate_succ']
  · obtain ⟨hname, -⟩ := hdown name (by simp)
    have hroot : name ≠ "/" := by
      rintro rfl
      exact hname.no_slash (by decide)
    rw [List.concat_eq_append, ← List.append_assoc, List.getLast?_concat]
    simp only [if_neg hname.ne_dots, if_neg hroot, List.dropLast_concat]
    exact ⟨count, front, rfl, fun other hmem => hdown other (by simp [hmem])⟩

/-- Every place that is passed lies on a way. -/
theorem isWay_of_mem_passed {names here place : List String} (hhere : IsWay names here)
    {rest : List String} (hrest : ∀ name ∈ rest, Path.IsPart name ∧ name ∈ names)
    (h : place ∈ passed here rest) : IsWay names place := by
  induction rest generalizing here with
  | nil => exact List.mem_singleton.mp h ▸ hhere
  | cons name rest ih =>
    obtain ⟨⟨hpart, hmem⟩, hrest⟩ := List.forall_mem_cons.mp hrest
    rcases List.mem_cons.mp h with rfl | h
    · exact hhere
    · refine ih ?_ hrest h
      unfold next
      by_cases hname : name = ".."
      · rw [if_pos hname]
        exact isWay_above hhere
      · rw [if_neg hname]
        obtain ⟨count, down, rfl, hdown⟩ := hhere
        refine ⟨count, down ++ [name], List.append_assoc .., ?_⟩
        rw [List.forall_mem_append]
        exact ⟨hdown, by simpa using ⟨⟨hpart, hname⟩, hmem⟩⟩

/-! ## A file at its end -/

/-- The directories on the way along some names, and a file in the last one. -/
def reached (names : List String) (file : String) : Tree :=
  ⟨(passed [] names).dedup.map (fun place => (place, .directory)) ++
    [(names.foldl next [] ++ [file], .file [] true)]⟩

section Reached

variable {names : List String} {file : String}

/-- The entries are the places that are passed, as directories, and the file at the end. -/
theorem mem_entries_reached {entry : List String × Entry} :
    entry ∈ (reached names file).entries ↔
      (∃ place ∈ passed [] names, entry = (place, .directory)) ∨
        entry = (names.foldl next [] ++ [file], .file [] true) := by
  simp only [reached, List.mem_append, List.mem_map, List.mem_dedup, List.mem_singleton,
    eq_comm (b := entry)]

variable (hparts : ∀ name ∈ names, Path.IsPart name) (hfile : IsName file) (hfresh : file ∉ names)
include hparts hfile hfresh

/-- No directory on the way is named like the file. -/
theorem file_notMem_of_mem_passed {place : List String} (h : place ∈ passed [] names) :
    IsWay names place ∧ file ∉ place := by
  have hway : IsWay names place :=
    isWay_of_mem_passed ⟨0, [], rfl, nofun⟩ (fun name hmem => ⟨hparts name hmem, hmem⟩) h
  refine ⟨hway, fun hmem => ?_⟩
  obtain ⟨count, down, rfl, hdown⟩ := hway
  rcases List.mem_append.mp hmem with hmem | hmem
  · exact hfile.ne_dots (List.mem_replicate.mp hmem).2
  · exact hfresh (hdown file hmem).2

/-- These entries make a file system. -/
theorem isSystem_reached : (reached names file).IsSystem where
  nodup := by
    have hdirectories : ((passed [] names).dedup.map fun place => (place, Entry.directory)).map
        Prod.fst = (passed [] names).dedup := by
      rw [List.map_map]
      exact List.map_id _
    rw [reached, List.map_append, hdirectories, List.map_singleton, List.nodup_append]
    refine ⟨List.nodup_dedup _, List.nodup_singleton _, fun place hplace other hother heq => ?_⟩
    have hmem : file ∈ place := by
      rw [heq, List.mem_singleton.mp hother]
      exact List.mem_append_right _ List.mem_cons_self
    exact (file_notMem_of_mem_passed hparts hfile hfresh (List.mem_dedup.mp hplace)).2 hmem
  named entry hentry := by
    rcases mem_entries_reached.mp hentry with ⟨place, hplace, rfl⟩ | rfl
    · obtain ⟨⟨count, down, rfl, hdown⟩, -⟩ := file_notMem_of_mem_passed hparts hfile hfresh hplace
      exact ⟨_, down, rfl, .inr ⟨count, rfl⟩, fun name hname => (hdown name hname).1⟩
    · obtain ⟨⟨count, down, hplace, hdown⟩, -⟩ :=
        file_notMem_of_mem_passed hparts hfile hfresh (foldl_next_mem_passed [] names)
      refine ⟨_, down ++ [file], by rw [hplace, List.append_assoc], .inr ⟨count, rfl⟩, ?_⟩
      rw [List.forall_mem_append, List.forall_mem_singleton]
      exact ⟨fun name hname => (hdown name hname).1, hfile⟩
  apart place content readable hmem entry hentry hbelow := by
    rcases mem_entries_reached.mp hmem with ⟨_, -, heq⟩ | heq
    · cases heq
    · cases heq
      rcases mem_entries_reached.mp hentry with ⟨other, hother, rfl⟩ | rfl
      · have hmem : file ∈ other := hbelow.subset (by simp)
        exact absurd hmem (file_notMem_of_mem_passed hparts hfile hfresh hother).2
      · rfl

/-- The names lead to the last directory. -/
theorem follow_reached : (reached names file).follow [] names = some (names.foldl next []) := by
  refine follow_of_passed fun place hplace => ?_
  exact lookup?_of_mem (isSystem_reached hparts hfile hfresh).nodup
    (mem_entries_reached.mpr (.inl ⟨place, hplace, rfl⟩))

/-- The file is found below the path with the names. -/
theorem mem_filesBelow_reached :
    (⟨"", names ++ [file]⟩ : Path) ∈ (reached names file).filesBelow ⟨"", names⟩ := by
  have hsystem := isSystem_reached hparts hfile hfresh
  refine hsystem.mem_filesBelow.mpr ⟨⟨[file], List.cons_ne_nil _ _, ?_, rfl⟩, isFile_iff.mpr ?_⟩
  · exact fun name hname => List.mem_singleton.mp hname ▸ hfile
  have hlisted : (names.foldl next [] ++ [file], .file [] true) ∈ (reached names file).entries :=
    mem_entries_reached.mpr (.inr rfl)
  refine ⟨_, [], true, ?_, lookup?_of_mem hsystem.nodup hlisted⟩
  change (reached names file).follow [] (names ++ [file]) = _
  rw [follow_append, follow_reached hparts hfile hfresh, Option.bind_some]
  refine hsystem.follow_of_mem ?_ hlisted
  exact fun hmem => hfile.ne_dots (List.mem_singleton.mp hmem).symm

/-- The names lead to a directory of it. -/
theorem isDirectory_reached : (reached names file).isDirectory ⟨"", names⟩ = true := by
  have hplace : (names.foldl next [], .directory) ∈ (reached names file).entries :=
    mem_entries_reached.mpr (.inl ⟨_, foldl_next_mem_passed [] names, rfl⟩)
  have hentry : Tree.entry? (reached names file) ⟨"", names⟩ = some .directory := by
    change ((reached names file).follow [] names).bind _ = _
    rw [follow_reached hparts hfile hfresh, Option.bind_some]
    exact lookup?_of_mem (isSystem_reached hparts hfile hfresh).nodup hplace
  rw [isDirectory, hentry]

end Reached

/-- There is always one more name. -/
theorem exists_isName_notMem (names : List String) : ∃ name, IsName name ∧ name ∉ names := by
  let length := (names.map String.length).sum
  let name := String.ofList ('a' :: List.replicate length 'a')
  have htext : name.toList = 'a' :: List.replicate length 'a' := String.toList_ofList
  have hhead : name.toList.head? = some 'a' := by
    rw [htext]
    rfl
  have hne (other : String) (hother : other.toList.head? ≠ some 'a') : name ≠ other := by
    rintro rfl
    exact hother hhead
  have hslash : '/' ∉ name.toList := by
    rw [htext, ← List.replicate_succ, List.mem_replicate]
    exact fun h => absurd h.2 (by decide)
  refine ⟨name, ⟨⟨hne _ (by decide), hne _ (by decide), hslash⟩, hne _ (by decide)⟩, fun hmem => ?_⟩
  -- the name is longer than all of the others in a row
  have hle : name.length ≤ length := List.le_sum_of_mem (List.mem_map_of_mem hmem)
  rw [← String.length_toList, htext, List.length_cons, List.length_replicate] at hle
  omega

end PhpAudit.Files.Tree
