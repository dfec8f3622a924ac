import PhpAudit.Audit.Session
import PhpAudit.Proofs.Files.Tree
import PhpAudit.Proofs.Pattern.Wildcard

/-!
# Which files are analysed

A scope names paths, and the files analysed are those that the paths lead to: one path after the
other, everything below a directory in the order of the names, without what has another suffix and
without what is excluded (`sources_listed`). It is the files that decide, and not the order in which
the system lists them.
-/

namespace PhpAudit.Audit.Scope

open PhpAudit.Files

/-! ## Paths -/

/-- Where a path is that is taken from a directory: behind the directory, unless it starts at a
root. Without a directory it is where it says. -/
def located (directory path : String) : String :=
  if directory = "" ∨ path.toList.head? = some '/' then path else directory ++ "/" ++ path

/-- Where a scope looks, one place after the other. -/
def places (scope : Scope) : List String :=
  if scope.paths = [] then [scope.basePath] else scope.paths.map (located scope.basePath)

/-- A path other than the base is taken below the base. -/
theorem resolve_eq {scope : Scope} (hlast : scope.basePath.toList.getLast? ≠ some '/')
    {path : String} (hne : path ≠ scope.basePath) :
    scope.resolve path = Path.ofString (located scope.basePath path) := by
  unfold resolve located
  by_cases hbase : scope.basePath = ""
  · rw [if_neg (by simp [hbase]), if_pos (.inl hbase)]
  · rw [if_pos (by simp [hbase, hne])]
    by_cases hroot : path.toList.head? = some '/'
    · rw [if_pos (.inr hroot), Path.join, if_pos (Path.isAbsolute_ofString.mpr hroot)]
    · rw [if_neg (by simp [hbase, hroot]), Path.join_ofString hbase hlast hroot]

/-- The base itself is taken as it is. -/
theorem resolve_basePath (scope : Scope) :
    scope.resolve scope.basePath = Path.ofString scope.basePath := by
  rw [resolve, if_neg (by simp)]

/-- The configured paths are resolved to the places where the scope looks. -/
theorem map_resolve_roots {scope : Scope} (hlast : scope.basePath.toList.getLast? ≠ some '/')
    (hpaths : scope.basePath ∉ scope.paths) :
    scope.roots.map scope.resolve = scope.places.map Path.ofString := by
  unfold roots places
  by_cases hnil : scope.paths = []
  · rw [if_pos hnil, if_pos (List.isEmpty_iff.mpr hnil), List.map_singleton, List.map_singleton,
      resolve_basePath]
  · rw [if_neg hnil, if_neg (mt List.isEmpty_iff.mp hnil), List.map_map]
    apply List.map_congr_left
    intro path hpath
    exact resolve_eq hlast fun heq => hpaths (heq ▸ hpath)

/-! ## Files -/

/-- The files at a path are what the path lists. -/
theorem lists_filesAt {files : Tree} (h : files.IsSystem) (path : Path) :
    files.Lists path (filesAt files path) := by
  unfold filesAt
  by_cases hfile : files.isFile path = true
  · rw [if_pos hfile]
    exact .file hfile
  · rw [if_neg hfile]
    by_cases hdirectory : files.isDirectory path = true
    · rw [if_pos hdirectory]
      exact .directory hdirectory (fun _ => h.mem_filesBelow) (h.pairwise_filesBelow path)
    · rw [if_neg hdirectory]
      exact .nothing (Bool.eq_false_iff.mpr hfile) (Bool.eq_false_iff.mpr hdirectory)

/-- A file of sources: its name ends in `.php` behind something else, and no wildcard of those that
exclude files stands for its path. -/
structure IsSource (scope : Scope) (path : Path) : Prop where
  suffix : ∃ stem, stem ≠ "" ∧ path.name = stem ++ ".php"
  kept : ∀ wildcard ∈ scope.excludePatterns,
    ¬ Wildcard.Denotes wildcard.toList path.text.toList

/-- A path is admitted iff it is a source of the scope. -/
theorem admits_iff {scope : Scope} {path : Path} :
    scope.admits path = true ↔ scope.IsSource path := by
  have hsuffix : path.suffix = sourceSuffix ↔ ∃ stem, stem ≠ "" ∧ path.name = stem ++ ".php" :=
    Path.suffix_eq_iff rfl (by decide) (by decide)
  have hkept : scope.excludes path = false ↔ ∀ wildcard ∈ scope.excludePatterns,
      ¬ Wildcard.Denotes wildcard.toList path.text.toList := by
    simp only [excludes, List.any_eq_false, Wildcard.matchesName_iff]
  rw [admits, Bool.and_eq_true, beq_iff_eq, Bool.not_eq_true', hsuffix, hkept]
  exact ⟨fun h => ⟨h.1, h.2⟩, fun h => ⟨h.1, h.2⟩⟩

instance (scope : Scope) (path : Path) : Decidable (scope.IsSource path) :=
  decidable_of_iff _ admits_iff

/-- The sources are found in any listing of the files at each place. -/
theorem sources_eq {scope : Scope} {files : Tree} (h : files.IsSystem)
    (hlast : scope.basePath.toList.getLast? ≠ some '/') (hpaths : scope.basePath ∉ scope.paths)
    {listing : Path → List Path} (hlisting : ∀ path, files.Lists path (listing path)) :
    scope.sources files = scope.places.flatMap fun place =>
      ((listing (Path.ofString place)).filter (scope.IsSource ·)).map Path.text := by
  have hfiles : filesAt files = listing := by
    funext path
    exact (lists_filesAt h path).unique (hlisting path)
  have hadmits : scope.admits = fun path => decide (scope.IsSource path) := by
    funext path
    rw [Bool.eq_iff_iff, admits_iff, decide_eq_true_iff]
  have hall : scope.allFiles files =
      (scope.places.map Path.ofString).flatMap (filesAt files) := by
    rw [← map_resolve_roots hlast hpaths, List.flatMap_map]
    rfl
  rw [sources, hall, hfiles, hadmits, List.flatMap_map, List.filter_flatMap, List.map_flatMap]

/-- **Exactly the sources are analysed.** The files analysed are the sources among those listed at
each place in turn, and the order of the files in the system does not matter. -/
theorem sources_listed (scope : Scope) {files : Tree} (h : files.IsSystem)
    (hlast : scope.basePath.toList.getLast? ≠ some '/') (hpaths : scope.basePath ∉ scope.paths) :
    (∃ listing : Path → List Path, (∀ path, files.Lists path (listing path)) ∧
      scope.sources files = scope.places.flatMap fun place =>
        ((listing (Path.ofString place)).filter (scope.IsSource ·)).map Path.text) ∧
    ∀ other : Tree, files.entries.Perm other.entries →
      scope.sources other = scope.sources files := by
  have hlists := lists_filesAt h
  refine ⟨⟨filesAt files, hlists, sources_eq h hlast hpaths hlists⟩, ?_⟩
  intro other hperm
  have hother : ∀ path, other.Lists path (filesAt files path) := fun path =>
    (hlists path).congr (Tree.entry?_perm hperm h.nodup)
  rw [sources_eq h hlast hpaths hlists, sources_eq (h.perm hperm) hlast hpaths hother]

/-- A system in which a directory comes before the file with the same name and a suffix. -/
def nestedSystem : Tree := ⟨[
  (["app", "src", "a", "b.php"], .file [] true),
  (["app", "src", "a.php"], .file [] true),
  (["app", "src", "old", "c.php"], .file [] true),
  (["app", ".php"], .file [] true)]⟩

/-- A scope that names a file and a directory, and passes over what is old. -/
def nestedScope : Scope where
  basePath := "app"
  paths := [".//.php", "src"]
  excludePatterns := ["*/old/*"]

theorem isSystem_nestedSystem : nestedSystem.IsSystem :=
  Tree.isSystem_of_isName (by decide) (by decide) (by decide)

theorem filesBelow_nestedSystem : nestedSystem.filesBelow ⟨"", ["app", "src"]⟩ =
    [⟨"", ["app", "src", "a", "b.php"]⟩, ⟨"", ["app", "src", "a.php"]⟩,
      ⟨"", ["app", "src", "old", "c.php"]⟩] := by
  have hfollow : nestedSystem.follow (Tree.start ⟨"", ["app", "src"]⟩) ["app", "src"] =
      some ["app", "src"] := by decide
  have hbelow : nestedSystem.namesBelow ["app", "src"] =
      [["a", "b.php"], ["a.php"], ["old", "c.php"]] := by decide
  exact Tree.filesBelow_of_pairwise hfollow hbelow (by decide)

/-- A dot alone in front of `php` makes no suffix, and a directory comes where its name does. -/
theorem sources_listed_nestedSystem :
    nestedSystem.IsSystem ∧ nestedScope.basePath.toList.getLast? ≠ some '/' ∧
    nestedScope.basePath ∉ nestedScope.paths ∧
    ∀ other : Tree, nestedSystem.entries.Perm other.entries →
      nestedScope.sources other = ["app/src/a/b.php", "app/src/a.php"] := by
  refine ⟨isSystem_nestedSystem, by decide, by decide, ?_⟩
  intro other hperm
  have hall : nestedScope.allFiles nestedSystem = [⟨"", ["app", ".php"]⟩] ++
      nestedSystem.filesBelow ⟨"", ["app", "src"]⟩ := by
    have hfile : filesAt nestedSystem ⟨"", ["app", ".php"]⟩ = [⟨"", ["app", ".php"]⟩] :=
      if_pos (by decide)
    have hdirectory : filesAt nestedSystem ⟨"", ["app", "src"]⟩ =
        nestedSystem.filesBelow ⟨"", ["app", "src"]⟩ :=
      (if_neg (by decide)).trans (if_pos (by decide +kernel))
    have hroots : nestedScope.roots.map nestedScope.resolve =
        [⟨"", ["app", ".php"]⟩, ⟨"", ["app", "src"]⟩] := by decide
    rw [allFiles, ← List.flatMap_map, hroots]
    simp only [List.flatMap_cons, List.flatMap_nil, List.append_nil, hfile, hdirectory]
  rw [(sources_listed nestedScope isSystem_nestedSystem (by decide) (by decide)).2 other hperm,
    sources, hall, filesBelow_nestedSystem]
  decide

end PhpAudit.Audit.Scope
