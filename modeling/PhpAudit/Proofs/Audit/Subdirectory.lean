import PhpAudit.Proofs.Audit.Discovery
import PhpAudit.Proofs.Audit.Location
import PhpAudit.Proofs.Files.Reached

/-!
# Looking at a path, and looking from there

A configured path is taken from the base, so a scope with one path should find what a scope finds
whose base is that path. It does for every path but one: a path that is spelled like the base is
taken for the base itself, and not for the directory of that name inside it.
`configured_findsAlike_iff` says exactly when the two scopes find the same files in every file
system.

Files that are found at a path have its names in front of theirs, so scopes are told apart by a file
that only one of them can find.
-/

namespace PhpAudit.Audit.Scope

open PhpAudit.Files

/-- The scope with a base and one path in it. -/
def configured (base path : String) (excludePatterns : List String) : Scope :=
  ⟨base, [path], excludePatterns⟩

/-- The scope whose base is another base joined with a path. -/
def rebased (base path : String) (excludePatterns : List String) : Scope :=
  ⟨withoutTrailingSlashes (withSegment base path), [], excludePatterns⟩

/-- Two scopes find the same files in the same order, and the same of them are analysed, in every
file system. -/
def FindsAlike (scope other : Scope) : Prop :=
  ∀ files : Tree, files.IsSystem →
    scope.allFiles files = other.allFiles files ∧ scope.sources files = other.sources files

/-- Scopes that find the same files and exclude the same ones analyse the same. -/
theorem findsAlike_of_allFiles {scope other : Scope}
    (hpatterns : scope.excludePatterns = other.excludePatterns)
    (h : ∀ files : Tree, scope.allFiles files = other.allFiles files) :
    scope.FindsAlike other := by
  intro files _
  refine ⟨h files, ?_⟩
  have hadmits : scope.admits = other.admits := by
    funext path
    rw [admits, admits, excludes, excludes, hpatterns]
  rw [sources, sources, h, hadmits]

/-! ## Where the scopes look -/

theorem allFiles_of_roots {scope : Scope} {path : String} (h : scope.roots = [path])
    (files : Tree) : scope.allFiles files = filesAt files (scope.resolve path) := by
  rw [allFiles, h, List.flatMap_singleton]

section Paths

variable {base path : String} (hne : base ≠ "") (hlast : base.toList.getLast? ≠ some '/')
  (hrel : path.toList.head? ≠ some '/')
include hne hlast hrel

/-- A base joined with a path writes the path from the base. -/
theorem ofString_rebased (excludePatterns : List String) :
    Path.ofString (rebased base path excludePatterns).basePath =
      (Path.ofString base).join (Path.ofString path) := by
  have hjoined : withSegment base path = base ++ "/" ++ path := by
    rw [withSegment, if_neg (by simpa using hrel), if_neg (by simp [hne, hlast])]
  have hkept : withoutTrailingSlashes (withSegment base path) ≠ "" := by
    have hchars : base.toList ≠ [] := mt String.toList_eq_nil_iff.mp hne
    intro hempty
    rw [← String.toList_eq_nil_iff, toList_withoutTrailingSlashes, List.rdropWhile_eq_nil_iff,
      hjoined, String.toList_append, String.toList_append, List.append_assoc] at hempty
    have hslash := hempty _ (List.mem_append_left _ (List.getLast_mem hchars))
    rw [List.getLast?_eq_some_getLast hchars] at hlast
    exact hlast (congrArg some (eq_of_beq hslash))
  rw [Path.join_ofString hne hlast hrel, ← hjoined]
  exact ofString_withoutTrailingSlashes hkept

theorem allFiles_rebased (excludePatterns : List String) (files : Tree) :
    (rebased base path excludePatterns).allFiles files =
      filesAt files ((Path.ofString base).join (Path.ofString path)) := by
  rw [allFiles_of_roots rfl, resolve_basePath, ofString_rebased hne hlast hrel]

/-- Any path but the base itself is taken from the base. -/
theorem allFiles_configured (hother : path ≠ base) (excludePatterns : List String) (files : Tree) :
    (configured base path excludePatterns).allFiles files =
      filesAt files ((Path.ofString base).join (Path.ofString path)) := by
  have hresolve : (configured base path excludePatterns).resolve path =
      Path.ofString (located base path) := resolve_eq hlast hother
  have hlocated : located base path = base ++ "/" ++ path := by
    rw [located, if_neg (not_or.mpr ⟨hne, hrel⟩)]
  rw [allFiles_of_roots rfl, hresolve, hlocated, Path.join_ofString hne hlast hrel]

end Paths

/-- A path that is spelled like the base is taken for the base. -/
theorem allFiles_configured_self (base : String) (excludePatterns : List String) (files : Tree) :
    (configured base base excludePatterns).allFiles files = filesAt files (Path.ofString base) := by
  rw [allFiles_of_roots rfl]
  exact congrArg _ (resolve_basePath _)

/-! ## Telling scopes apart -/

/-- At a directory, the files below it are found. -/
theorem filesAt_of_isDirectory {files : Tree} {path : Path} (h : files.isDirectory path = true) :
    filesAt files path = files.filesBelow path := by
  have hnotFile : files.isFile path ≠ true := by
    intro hfile
    rw [Tree.isDirectory_eq_false_of_isFile hfile] at h
    cases h
  rw [filesAt, if_neg hnotFile, if_pos h]

/-- Files that are found at a path have its names in front of theirs. -/
theorem names_prefix_of_mem_filesAt {files : Tree} {path file : Path}
    (h : file ∈ filesAt files path) : path.names <+: file.names := by
  unfold filesAt at h
  split at h
  · exact List.mem_singleton.mp h ▸ List.prefix_rfl
  · split at h
    · unfold Tree.filesBelow at h
      split at h
      · obtain ⟨names, -, rfl⟩ := List.mem_map.mp h
        exact List.prefix_append _ _
      · cases h
    · cases h

/-- A relative path with names is told apart by some file system from the path that has the same
names once more behind them. -/
theorem exists_filesAt_ne {path : Path} (hproper : path.IsProper) (hroot : path.root = "")
    (hnames : path.names ≠ []) :
    ∃ files : Tree, files.IsSystem ∧ filesAt files path ≠ filesAt files (path.join path) := by
  obtain ⟨root, names⟩ := path
  obtain rfl : root = "" := hroot
  obtain ⟨file, hfile, hfresh⟩ := Tree.exists_isName_notMem names
  have hsystem := Tree.isSystem_reached hproper.parts hfile hfresh
  refine ⟨Tree.reached names file, hsystem, fun heq => hfresh ?_⟩
  have hfound : (⟨"", names ++ [file]⟩ : Path) ∈ filesAt (Tree.reached names file) ⟨"", names⟩ := by
    rw [filesAt_of_isDirectory (Tree.isDirectory_reached hproper.parts hfile hfresh)]
    exact Tree.mem_filesBelow_reached hproper.parts hfile hfresh
  -- of the second path's names, the latter half would be the name of the file
  rw [heq] at hfound
  have hprefix : names ++ names <+: names ++ [file] := names_prefix_of_mem_filesAt hfound
  have hlatter : names <+: [file] := (List.prefix_append_right_inj names).mp hprefix
  obtain ⟨first, rest, rfl⟩ := List.exists_cons_of_ne_nil hnames
  rw [List.cons_prefix_cons] at hlatter
  exact hlatter.1 ▸ List.mem_cons_self

/-- A path that is spelled like the base finds what a base there finds, in every file system, only
if the base has no name. -/
theorem configured_self_findsAlike_iff {base : String} (excludePatterns : List String)
    (hne : base ≠ "") (hlast : base.toList.getLast? ≠ some '/')
    (hrel : base.toList.head? ≠ some '/') :
    (configured base base excludePatterns).FindsAlike (rebased base base excludePatterns) ↔
      (Path.ofString base).names = [] := by
  have hroot : (Path.ofString base).root = "" := by
    by_contra h
    exact hrel ((Path.rootOf_ne_empty base.toList).mp h)
  constructor
  · intro halike
    by_contra hnames
    obtain ⟨files, hsystem, hfound⟩ := exists_filesAt_ne (Path.isProper_ofString base) hroot hnames
    have hall := (halike files hsystem).1
    rw [allFiles_configured_self, allFiles_rebased hne hlast hrel] at hall
    exact hfound hall
  · intro hnames
    have hjoin : (Path.ofString base).join (Path.ofString base) = Path.ofString base := by
      have hrelative : ¬ (Path.ofString base).isAbsolute = true :=
        mt Path.isAbsolute_ofString.mp hrel
      rw [Path.join, if_neg hrelative, hnames, List.append_nil, ← hnames]
    refine findsAlike_of_allFiles rfl fun files => ?_
    rw [allFiles_configured_self, allFiles_rebased hne hlast hrel, hjoin]

/-- **When a path finds what a base there finds.** The two scopes find the same files in every file
system, unless the path is spelled like the base and the base has a name in it. A path that is
spelled like the base is no path in it: all of the base is found. -/
theorem configured_findsAlike_iff {base path : String} (excludePatterns : List String)
    (hne : base ≠ "") (hlast : base.toList.getLast? ≠ some '/')
    (hrel : path.toList.head? ≠ some '/') :
    ((configured base path excludePatterns).FindsAlike (rebased base path excludePatterns) ↔
        path ≠ base ∨ (Path.ofString base).names = []) ∧
      (path = base →
        (configured base path excludePatterns).FindsAlike ⟨base, [], excludePatterns⟩) := by
  constructor
  · by_cases hsame : path = base
    · subst hsame
      rw [configured_self_findsAlike_iff excludePatterns hne hlast hrel]
      exact ⟨.inr, fun h => h.resolve_left (not_not_intro rfl)⟩
    · refine iff_of_true ?_ (.inl hsame)
      refine findsAlike_of_allFiles rfl fun files => ?_
      rw [allFiles_configured hne hlast hrel hsame, allFiles_rebased hne hlast hrel]
  · rintro rfl
    refine findsAlike_of_allFiles rfl fun files => ?_
    rw [allFiles_configured_self, allFiles_of_roots rfl, resolve_basePath]

/-- A directory with a file, and with a directory of its own name that has another file. -/
def repeatedSystem : Tree := ⟨[
  (["app", "a.php"], .file [] true),
  (["app", "app", "b.php"], .file [] true)]⟩

theorem isSystem_repeatedSystem : repeatedSystem.IsSystem :=
  Tree.isSystem_of_isName (by decide) (by decide) (by decide)

/-- What is found in a directory of that system. -/
theorem filesAt_repeatedSystem (names : List String) (below : List (List String))
    (hdirectory : repeatedSystem.isDirectory ⟨"", names⟩ = true)
    (hfollow : repeatedSystem.follow [] names = some names)
    (hbelow : repeatedSystem.namesBelow names = below)
    (hsorted : below.Pairwise fun first second => namesLE first second = true) :
    filesAt repeatedSystem ⟨"", names⟩ = below.map fun below => ⟨"", names ++ below⟩ := by
  rw [filesAt_of_isDirectory hdirectory]
  exact Tree.filesBelow_of_pairwise hfollow hbelow hsorted

/-- The path `app` in the base `app` finds the file beside the directory of that name, too, which is
not found from there. -/
theorem configured_not_findsAlike_repeated :
    repeatedSystem.IsSystem ∧
      (configured "app" "app" []).allFiles repeatedSystem =
        [⟨"", ["app", "a.php"]⟩, ⟨"", ["app", "app", "b.php"]⟩] ∧
      (rebased "app" "app" []).allFiles repeatedSystem = [⟨"", ["app", "app", "b.php"]⟩] ∧
      ¬ (configured "app" "app" []).FindsAlike (rebased "app" "app" []) := by
  have hbase : Path.ofString "app" = ⟨"", ["app"]⟩ := by decide
  have hfound : (configured "app" "app" []).allFiles repeatedSystem =
      [⟨"", ["app", "a.php"]⟩, ⟨"", ["app", "app", "b.php"]⟩] := by
    rw [allFiles_configured_self, hbase]
    exact filesAt_repeatedSystem ["app"] [["a.php"], ["app", "b.php"]]
      (by decide) (by decide +kernel) (by decide +kernel) (by decide +kernel)
  have hfound' : (rebased "app" "app" []).allFiles repeatedSystem =
      [⟨"", ["app", "app", "b.php"]⟩] := by
    rw [allFiles_rebased (by decide) (by decide) (by decide), hbase]
    exact filesAt_repeatedSystem ["app", "app"] [["b.php"]]
      (by decide) (by decide +kernel) (by decide +kernel) (by decide +kernel)
  refine ⟨isSystem_repeatedSystem, hfound, hfound', fun halike => ?_⟩
  have hsame := (halike _ isSystem_repeatedSystem).1
  rw [hfound, hfound'] at hsame
  exact absurd hsame (by decide)

/-- With a slash at its end the path is that of the directory inside. -/
theorem configured_findsAlike_slash :
    "app" ≠ "" ∧ "app".toList.getLast? ≠ some '/' ∧ "app/".toList.head? ≠ some '/' ∧
      (configured "app" "app/" []).FindsAlike (rebased "app" "app/" []) := by
  have hne : "app" ≠ "" := by decide
  have hlast : "app".toList.getLast? ≠ some '/' := by decide
  have hrel : "app/".toList.head? ≠ some '/' := by decide
  exact ⟨hne, hlast, hrel, (configured_findsAlike_iff [] hne hlast hrel).1.mpr (.inl (by decide))⟩

end PhpAudit.Audit.Scope
