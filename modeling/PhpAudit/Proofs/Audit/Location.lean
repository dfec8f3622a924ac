import Mathlib.Data.List.DropRight
import PhpAudit.Proofs.Files.Tree
import PhpAudit.Audit.Session

/-!
# Files as seen from a directory

Reports name files as they are seen from the directory that is looked through. Files are found by
their paths, and seen by the texts of those: the name is cut off as the directory is spelled, with
backslashes taken for slashes. `relativePath_locates_iff` says when the two agree, and that is not
always so: a directory that is spelled with a dot in front is not cut off.
-/

namespace PhpAudit.Audit

open PhpAudit.Files

/-! ## Texts without the directory -/

/-- A character with a slash in the place of a backslash. -/
def slashed (c : Char) : Char := if c == '\\' then '/' else c

/-- The characters of a text with its backslashes turned. -/
theorem toList_withSlashes (text : String) :
    (withSlashes text).toList = text.toList.map slashed := String.toList_ofList

/-- The characters of a text without the slashes at its end. -/
theorem toList_withoutTrailingSlashes (text : String) :
    (withoutTrailingSlashes text).toList = text.toList.rdropWhile (· == '/') :=
  String.toList_ofList

/-- A file below a directory starts with the slashed directory and one slash. -/
theorem toList_directoryStart (directory : String) : (directoryStart directory).toList =
    (directory.toList.map slashed).rdropWhile (· == '/') ++ ['/'] := by
  rw [directoryStart, String.toList_append, toList_withoutTrailingSlashes, toList_withSlashes]
  rfl

/-- What stands behind the start of the directory is the relative path. -/
theorem relativeTo_of_append {directory file : String} {rest : List Char} (hne : directory ≠ "")
    (hdot : directory ≠ ".")
    (h : (withSlashes file).toList = (directoryStart directory).toList ++ rest) :
    relativeTo directory file = String.ofList rest := by
  rw [relativeTo, if_neg (by simp [hne, hdot])]
  dsimp only
  rw [h, if_pos (List.isPrefixOf_iff_prefix.mpr (List.prefix_append _ _)), List.drop_left]

/-- A file that does not start with the directory is left as it is. -/
theorem relativeTo_of_not_start {directory file : String}
    (h : ¬ (directoryStart directory).toList <+: (withSlashes file).toList) :
    relativeTo directory file = file := by
  unfold relativeTo
  split
  · rfl
  · exact if_neg (mt List.isPrefixOf_iff_prefix.mp h)

/-! ## Slashes at the end -/

/-- No slash is left at the end once the trailing ones are dropped. -/
theorem getLast?_rdropWhile_ne (text : List Char) :
    (text.rdropWhile (· == '/')).getLast? ≠ some '/' := by
  intro h
  obtain ⟨front, heq⟩ := List.getLast?_eq_some_iff.mp h
  have hne : text.rdropWhile (· == '/') ≠ [] := by simp [heq]
  have hlast := List.rdropWhile_last_not (· == '/') text hne
  simp [heq] at hlast

/-- A text that does not end in a slash loses nothing. -/
theorem rdropWhile_eq_self {text : List Char} (h : text.getLast? ≠ some '/') :
    text.rdropWhile (· == '/') = text := by
  rw [List.rdropWhile_eq_self_iff]
  intro hne hlast
  rw [List.getLast?_eq_some_getLast hne, beq_iff_eq.mp hlast] at h
  exact h rfl

theorem dropWhile_sublist_dropWhile {p : Char → Bool} {front back : List Char}
    (h : front.Sublist back) : (front.dropWhile p).Sublist (back.dropWhile p) := by
  induction h with
  | slnil => exact .refl _
  | @cons front back c hsub ih =>
    by_cases hc : p c = true
    · rw [List.dropWhile_cons_of_pos hc]
      exact ih
    · rw [List.dropWhile_cons_of_neg hc]
      exact ((List.dropWhile_sublist _).trans hsub).cons _
  | @cons_cons front back c hsub ih =>
    by_cases hc : p c = true
    · rw [List.dropWhile_cons_of_pos hc, List.dropWhile_cons_of_pos hc]
      exact ih
    · rw [List.dropWhile_cons_of_neg hc, List.dropWhile_cons_of_neg hc]
      exact hsub.cons_cons _

/-- A part of a text, without the slashes at its end, is a part of the text without its own. -/
theorem rdropWhile_sublist_rdropWhile {front back : List Char} (h : front.Sublist back) :
    (front.rdropWhile (· == '/')).Sublist (back.rdropWhile (· == '/')) :=
  (dropWhile_sublist_dropWhile h.reverse).reverse

/-- Where a text is cut at a slash in two ways, and the front of one cut ends in slashes, the other
cut is in front of these slashes, unless its rest is shorter. -/
theorem eq_of_cuts {start rest front slashes back : List Char}
    (h : start ++ '/' :: rest = front ++ (slashes ++ '/' :: back))
    (hslashes : ∀ c ∈ slashes, c = '/') (hstart : start.getLast? ≠ some '/')
    (hfront : front.length ≤ start.length) (hback : back.length ≤ rest.length) :
    start = front ∧ '/' :: rest = slashes ++ '/' :: back := by
  have hahead : front <+: start :=
    List.prefix_of_prefix_length_le ⟨_, h.symm⟩ ⟨_, rfl⟩ hfront
  obtain ⟨more, rfl⟩ := hahead
  rw [List.append_assoc, List.append_cancel_left_eq] at h
  have hlength := congrArg List.length h
  simp only [List.length_append, List.length_cons] at hlength
  have hmore : more <+: slashes :=
    List.prefix_of_prefix_length_le ⟨_, h⟩ ⟨_, rfl⟩ (by omega)
  have hnil : more = [] := by
    by_contra hne
    have hlast := hslashes _ (hmore.subset (List.getLast_mem hne))
    rw [List.getLast?_append_of_ne_nil _ hne, List.getLast?_eq_some_getLast hne, hlast] at hstart
    exact hstart rfl
  rw [hnil, List.append_nil]
  rw [hnil] at h
  exact ⟨rfl, h⟩

/-! ## Backslashes -/

/-- No backslash is left once they are turned. -/
theorem not_mem_map_slashed (text : List Char) : '\\' ∉ text.map slashed := by
  intro hmem
  obtain ⟨c, -, hc⟩ := List.mem_map.mp hmem
  unfold slashed at hc
  split at hc
  · exact absurd hc (by decide)
  · next hne => exact hne (beq_iff_eq.mpr hc)

/-- A text without backslashes is not changed by turning them. -/
theorem map_slashed_eq_self {text : List Char} (h : '\\' ∉ text) : text.map slashed = text := by
  refine (List.map_congr_left ?_).trans text.map_id
  intro c hc
  have hne : c ≠ '\\' := fun heq => h (heq ▸ hc)
  simp [slashed, hne]

/-- A turned text ends in a slash iff the text ends in either of the two. -/
theorem getLast?_map_slashed {text : List Char} : (text.map slashed).getLast? = some '/' ↔
    text.getLast? = some '/' ∨ text.getLast? = some '\\' := by
  rw [List.getLast?_map]
  cases text.getLast? with
  | none => simp
  | some c =>
    by_cases hc : c = '\\'
    · simp [slashed, hc]
    · simp [slashed, hc]

theorem rdropWhile_map_slashed {text : List Char} (h : text.getLast? ≠ some '/')
    (h' : text.getLast? ≠ some '\\') :
    (text.map slashed).rdropWhile (· == '/') = text.map slashed := by
  apply rdropWhile_eq_self
  rw [ne_eq, getLast?_map_slashed, not_or]
  exact ⟨h, h'⟩

/-! ## Locations -/

/-- A text names a file as it is seen from a directory: it starts at no root, and leads to the file
from the directory. -/
def Locates (base text : String) (file : Path) : Prop :=
  (Path.ofString text).isAbsolute = false ∧
    Path.join (Path.ofString base) (Path.ofString text) = file

/-- A text locates a place below the base iff it denotes the names below it, with no root. -/
theorem locates_iff {base text : String} {below : List String} :
    Locates base text ⟨(Path.ofString base).root, (Path.ofString base).names ++ below⟩ ↔
      Path.ofString text = ⟨"", below⟩ := by
  constructor
  · rintro ⟨hrel, hjoin⟩
    rw [Path.join, if_neg (by simp [hrel])] at hjoin
    have hroot : (Path.ofString text).root = "" := by simpa [Path.isAbsolute] using hrel
    have hnames := List.append_cancel_left (Files.Path.mk.inj hjoin).2
    rw [← hroot, ← hnames]
  · intro h
    rw [Locates, h]
    exact ⟨rfl, rfl⟩

/-- What names a file is no shorter than the names that lead to it. -/
theorem joined_sublist {text : String} {below : List String} (hbelow : below ≠ [])
    (h : Path.ofString text = ⟨"", below⟩) : (Path.joined below).Sublist text.toList := by
  have hne : text ≠ "" := by
    rintro rfl
    exact hbelow (Files.Path.mk.inj h).2.symm
  have hsub := Path.text_ofString_sublist hne
  rwa [h, Path.toList_text (.inr hbelow)] at hsub

/-- Joined names are read as a relative path of just these names. -/
theorem ofString_joined {below : List String} (hbelow : below ≠ [])
    (hparts : ∀ name ∈ below, Path.IsPart name) :
    Path.ofString (String.ofList (Path.joined below)) = ⟨"", below⟩ := by
  have hproper : (⟨"", below⟩ : Path).IsProper := ⟨.inl rfl, hparts⟩
  have htext : String.ofList (Path.joined below) = (⟨"", below⟩ : Path).text := by
    rw [← String.toList_inj, String.toList_ofList, Path.toList_text (.inr hbelow)]
    rfl
  rw [htext, Path.ofString_text hproper]

section Below

variable {directory : String} {below : List String}
  (hlast : directory.toList.getLast? ≠ some '/') (hbelow : below ≠ [])
  (hparts : ∀ name ∈ below, Path.IsPart name)

def fileBelow (directory : String) (below : List String) : Path :=
  ⟨(Path.ofString directory).root, (Path.ofString directory).names ++ below⟩

include hparts in
/-- A file below a directory is a proper path when the names below are proper. -/
theorem isProper_fileBelow : (fileBelow directory below).IsProper :=
  (Path.isProper_ofString directory).append hparts

include hbelow in
/-- The text of a file below a directory: the directory, a slash and the names below. -/
theorem toList_withSlashes_fileBelow (hnames : (Path.ofString directory).names ≠ []) :
    (withSlashes (fileBelow directory below).text).toList =
      (Path.ofString directory).text.toList.map slashed ++
        '/' :: (Path.joined below).map slashed := by
  rw [toList_withSlashes, fileBelow, Path.text_append hnames hbelow, List.map_append, List.map_cons]
  rfl

/-- A directory that has names is neither the empty text nor a lone dot. -/
theorem ne_of_names_ne_nil (hnames : (Path.ofString directory).names ≠ []) :
    directory ≠ "" ∧ directory ≠ "." := by
  constructor
  · rintro rfl
    exact hnames rfl
  · rintro rfl
    exact hnames (by decide)

/-- The name that is left when the start of a directory is cut off leads on from the path of the
directory: no slashes are left in front, because it would start at the root then. -/
theorem eq_joined_of_seen (hnames : (Path.ofString directory).names ≠ []) (hbelow : below ≠ [])
    {rest : List Char} (hrest : (directoryStart directory).toList ++ rest =
      (withSlashes (fileBelow directory below).text).toList)
    (h : Path.ofString (String.ofList rest) = ⟨"", below⟩) :
    (directory.toList.map slashed).rdropWhile (· == '/') =
      (Path.ofString directory).text.toList.map slashed ∧
    rest = Path.joined below ∧ '\\' ∉ rest := by
  obtain ⟨hne, -⟩ := ne_of_names_ne_nil hnames
  have hsub := joined_sublist hbelow h
  rw [String.toList_ofList] at hsub
  have htext := (Path.text_ofString_sublist hne).map slashed
  rw [toList_directoryStart, toList_withSlashes_fileBelow hbelow hnames, List.append_assoc,
    List.singleton_append, ← List.rdropWhile_append_rtakeWhile (p := (· == '/'))
      (l := (Path.ofString directory).text.toList.map slashed), List.append_assoc] at hrest
  -- both cuts are behind the directory, since the names that are left are no shorter than `below`
  obtain ⟨hfront, hback⟩ := eq_of_cuts hrest (fun c hc => by simpa using List.mem_rtakeWhile_imp hc)
    (getLast?_rdropWhile_ne _) (rdropWhile_sublist_rdropWhile htext).length_le
    (by simpa using hsub.length_le)
  cases hslashes : ((Path.ofString directory).text.toList.map slashed).rtakeWhile (· == '/') with
  | nil =>
    rw [hslashes, List.nil_append] at hback
    have hback := (List.cons.inj hback).2
    have hsame : Path.joined below = rest :=
      hsub.eq_of_length (by rw [hback, List.length_map])
    refine ⟨?_, hsame.symm, ?_⟩
    · have hwhole := List.rdropWhile_append_rtakeWhile (p := (· == '/'))
        (l := (Path.ofString directory).text.toList.map slashed)
      rw [hslashes, List.append_nil] at hwhole
      rw [hfront, hwhole]
    · rw [hback]
      exact not_mem_map_slashed _
  | cons c slashes =>
    -- what is left would start with a slash
    have hall : ∀ d ∈ c :: slashes, d = '/' := by
      intro d hd
      rw [← hslashes] at hd
      simpa using List.mem_rtakeWhile_imp hd
    rw [hslashes, List.cons_append] at hback
    have hroot : rest.head? = some '/' := by
      rw [(List.cons.inj hback).2]
      cases slashes with
      | nil => rfl
      | cons d slashes =>
        rw [hall d (List.mem_cons_of_mem _ List.mem_cons_self)]
        rfl
    rw [← String.toList_ofList (l := rest), ← Path.isAbsolute_ofString, h] at hroot
    cases hroot

include hlast hbelow hparts in
/-- If a file below a directory is seen by its names there, the directory is spelled as its path is,
and backslashes do not get in the way. -/
theorem spelled_of_seen (hnames : (Path.ofString directory).names ≠ [])
    (h : Path.ofString (relativeTo directory (fileBelow directory below).text) = ⟨"", below⟩) :
    directory = (Path.ofString directory).text ∧ directory.toList.getLast? ≠ some '\\' ∧
      ∀ name ∈ below, '\\' ∉ name.toList := by
  by_cases hstart : (directoryStart directory).toList <+:
      (withSlashes (fileBelow directory below).text).toList
  · obtain ⟨rest, hrest⟩ := hstart
    obtain ⟨hne, hdot⟩ := ne_of_names_ne_nil hnames
    rw [relativeTo_of_append hne hdot hrest.symm] at h
    obtain ⟨hfront, rfl, hrest⟩ := eq_joined_of_seen hnames hbelow hrest h
    have hend : directory.toList.getLast? ≠ some '\\' := by
      intro hslash
      have htext := (Path.getLast?_text_ofString hslash (by decide) (by decide)).2
      have hmap := getLast?_map_slashed.mpr (.inr htext)
      rw [← hfront] at hmap
      exact getLast?_rdropWhile_ne _ hmap
    refine ⟨?_, hend, fun name hname hmem => hrest (Path.mem_joined_of_mem hname hmem)⟩
    rw [rdropWhile_map_slashed hlast hend] at hfront
    have hlength := congrArg List.length hfront
    rw [List.length_map, List.length_map] at hlength
    exact String.toList_inj.mp ((Path.text_ofString_sublist hne).eq_of_length hlength.symm).symm
  · rw [relativeTo_of_not_start hstart, Path.ofString_text (isProper_fileBelow hparts)] at h
    exact absurd (List.append_left_eq_self.mp (Files.Path.mk.inj h).2) hnames

include hlast hbelow hparts in
/-- A file below a directory that is spelled as its path is is seen by its names there. -/
theorem seen_of_spelled (hnames : (Path.ofString directory).names ≠ [])
    (htext : directory = (Path.ofString directory).text)
    (hend : directory.toList.getLast? ≠ some '\\') (hplain : ∀ name ∈ below, '\\' ∉ name.toList) :
    Path.ofString (relativeTo directory (fileBelow directory below).text) = ⟨"", below⟩ := by
  obtain ⟨hne, hdot⟩ := ne_of_names_ne_nil hnames
  have hjoined : (Path.joined below).map slashed = Path.joined below := by
    apply map_slashed_eq_self
    intro hmem
    rcases Path.of_mem_joined hmem with hslash | ⟨name, hname, hc⟩
    · exact absurd hslash (by decide)
    · exact hplain name hname hc
  have hwhole : (withSlashes (fileBelow directory below).text).toList =
      (directoryStart directory).toList ++ Path.joined below := by
    rw [toList_withSlashes_fileBelow hbelow hnames, hjoined, toList_directoryStart, ← htext,
      rdropWhile_map_slashed hlast hend, List.append_assoc, List.singleton_append]
  rw [relativeTo_of_append hne hdot hwhole, ofString_joined hbelow hparts]

/-- Without names, a directory cannot end in a backslash: that would be the end of one. -/
theorem getLast?_ne_backslash (hnames : (Path.ofString directory).names = []) :
    directory.toList.getLast? ≠ some '\\' := by
  intro h
  exact (Path.getLast?_text_ofString h (by decide) (by decide)).1 hnames

/-- The root of a path is no longer than its text. -/
theorem length_root_le (directory : String) :
    (Path.ofString directory).root.toList.length ≤ directory.toList.length := by
  obtain ⟨rest, htext, -⟩ := Path.eq_rootOf_append directory.toList
  have hlength := congrArg List.length htext
  rw [List.length_append] at hlength
  change (Path.rootOf directory.toList).toList.length ≤ _
  omega

include hlast hbelow hparts in
/-- Without names in the way, a file is seen by its names unless it is taken from the root, or the
spelling of the working directory is found in it. -/
theorem seen_iff_of_names_eq_nil (hne : directory ≠ "")
    (hnames : (Path.ofString directory).names = []) :
    Path.ofString (relativeTo directory (fileBelow directory below).text) = ⟨"", below⟩ ↔
      (Path.ofString directory).root = "" ∧ (directory = "." ∨
        ¬ (directoryStart directory).toList <+:
          (withSlashes (fileBelow directory below).text).toList) := by
  have hseen : ∀ text, text = (fileBelow directory below).text →
      (Path.ofString text = ⟨"", below⟩ ↔ (Path.ofString directory).root = "") := by
    rintro _ rfl
    rw [Path.ofString_text (isProper_fileBelow hparts), fileBelow, hnames]
    simp
  by_cases hdot : directory = "."
  · have hself : relativeTo directory (fileBelow directory below).text =
        (fileBelow directory below).text := by
      rw [relativeTo, if_pos (by simp [hdot])]
    rw [hseen _ hself]
    simp [hdot]
  · by_cases hstart : (directoryStart directory).toList <+:
        (withSlashes (fileBelow directory below).text).toList
    · simp only [hdot, hstart, not_true_eq_false, or_self, and_false, iff_false]
      intro h
      obtain ⟨rest, hrest⟩ := hstart
      rw [relativeTo_of_append hne hdot hrest.symm] at h
      -- what is left is shorter than the names below the directory
      have hshort := (joined_sublist hbelow h).length_le
      have hstart := congrArg List.length hrest
      rw [toList_directoryStart, rdropWhile_map_slashed hlast (getLast?_ne_backslash hnames),
        toList_withSlashes, Path.toList_text (.inr (by simp [fileBelow, hbelow])), fileBelow, hnames,
        List.nil_append] at hstart
      simp only [List.length_append, List.length_map, List.length_singleton] at hstart
      have hroot := length_root_le directory
      rw [String.toList_ofList] at hshort
      omega
    · rw [hseen _ (relativeTo_of_not_start hstart)]
      simp [hstart]

end Below

/-! ## Files that are found -/

/-- A directory is spelled as its path is, and backslashes, which are taken for slashes, stand
neither at its end nor in the names below it; or it is the working directory, and is spelled by a
dot or so that no name can be mistaken for it. -/
def IsPlain (base : String) (file : Path) : Prop :=
  let path := Path.ofString base
  let spelled := withoutTrailingSlashes base
  (path.names ≠ [] ∧ spelled = path.text ∧ spelled.toList.getLast? ≠ some '\\' ∧
    ∀ name ∈ file.names.drop path.names.length, '\\' ∉ name.toList) ∨
  (path.names = [] ∧ path.root = "" ∧ (spelled = "." ∨
    ¬ (directoryStart spelled).toList <+: (withSlashes file.text).toList))

theorem getLast?_withoutTrailingSlashes (base : String) :
    (withoutTrailingSlashes base).toList.getLast? ≠ some '/' := by
  rw [toList_withoutTrailingSlashes]
  exact getLast?_rdropWhile_ne base.toList

/-- Slashes at the end of a base do not change the directory it denotes. -/
theorem ofString_withoutTrailingSlashes {base : String} (h : withoutTrailingSlashes base ≠ "") :
    Path.ofString (withoutTrailingSlashes base) = Path.ofString base := by
  have hslashes : base.toList.rtakeWhile (· == '/') =
      List.replicate (base.toList.rtakeWhile (· == '/')).length '/' :=
    List.eq_replicate_of_mem fun c hc => by simpa using List.mem_rtakeWhile_imp hc
  rw [← Path.ofString_append_slashes h (getLast?_withoutTrailingSlashes base), ← hslashes,
    toList_withoutTrailingSlashes, List.rdropWhile_append_rtakeWhile, String.ofList_toList]

/-- The relative path denotes the names below the base iff the base is spelled plainly. -/
theorem isPlain_iff {base : String} (hne : withoutTrailingSlashes base ≠ "") {below : List String}
    (hbelow : below ≠ []) (hparts : ∀ name ∈ below, Path.IsPart name) :
    Path.ofString (relativeTo (withoutTrailingSlashes base)
        (fileBelow (withoutTrailingSlashes base) below).text) = ⟨"", below⟩ ↔
      IsPlain base (fileBelow base below) := by
  have hlast := getLast?_withoutTrailingSlashes base
  have hpath := ofString_withoutTrailingSlashes hne
  have hfile : fileBelow (withoutTrailingSlashes base) below = fileBelow base below := by
    rw [fileBelow, fileBelow, hpath]
  have hdrop : (fileBelow base below).names.drop (Path.ofString base).names.length = below :=
    List.drop_left
  have hsame : (Path.ofString (withoutTrailingSlashes base)).names = (Path.ofString base).names := by
    rw [hpath]
  unfold IsPlain
  by_cases hnames : (Path.ofString base).names = []
  · rw [seen_iff_of_names_eq_nil hlast hbelow hparts hne (hsame.trans hnames), hpath, hfile]
    simp only [hnames, ne_eq, not_true_eq_false, false_and, false_or, true_and]
  · simp only [ne_eq, hnames, not_false_eq_true, true_and, false_and, or_false, hdrop]
    have hnames' : (Path.ofString (withoutTrailingSlashes base)).names ≠ [] :=
      fun h => hnames (hsame.symm.trans h)
    rw [← hpath]
    constructor
    · exact spelled_of_seen hlast hbelow hparts hnames'
    · rintro ⟨htext, hend, hplain⟩
      exact seen_of_spelled hlast hbelow hparts hnames' htext hend hplain

/-- Files that are found start at the root that the place they are looked for at has. -/
theorem root_of_mem_filesAt {files : Tree} {path file : Path}
    (h : file ∈ Scope.filesAt files path) : file.root = path.root := by
  unfold Scope.filesAt at h
  split at h
  · rw [List.mem_singleton.mp h]
  · split at h
    · unfold Tree.filesBelow at h
      split at h
      · obtain ⟨names, -, rfl⟩ := List.mem_map.mp h
        rfl
      · cases h
    · cases h

/-- A base made only of slashes denotes a root. -/
theorem root_ne_empty_of_slashes {base : String} (hne : base ≠ "")
    (h : withoutTrailingSlashes base = "") : (Path.ofString base).root ≠ "" := by
  rw [← String.toList_eq_nil_iff, toList_withoutTrailingSlashes, List.rdropWhile_eq_nil_iff] at h
  obtain ⟨c, rest, heq⟩ := List.exists_cons_of_ne_nil (mt String.toList_eq_nil_iff.mp hne)
  have hc : c = '/' := by simpa using h c (heq ▸ List.mem_cons_self)
  refine (Path.rootOf_ne_empty base.toList).mpr ?_
  rw [heq, hc, List.head?_cons]

/-- **When a file is seen from the base as what it is there.** The name of a file that is found
below the base is relative and leads to the file from the base exactly if base and names are plain;
spelled otherwise, the base stays in front of the name, or too much or too little goes with it. -/
theorem relativePath_locates_iff (session : Session) {scope : Scope} {base : String}
    (hscope : session.scope = some scope) (hbase : scope.basePath = withoutTrailingSlashes base)
    (hpaths : scope.paths = []) (hne : base ≠ "") {file : Path}
    (hfile : file ∈ scope.allFiles session.files) (hbelow : (Path.ofString base).IsBelow file) :
    Locates base (session.relativePath file.text) file ↔ IsPlain base file := by
  obtain ⟨below, hbelow, hnames, rfl⟩ := hbelow
  by_cases hempty : withoutTrailingSlashes base = ""
  · -- nothing but slashes: the files are those of the working directory, and none is at the root
    have hroots : scope.roots = [""] := by
      rw [Scope.roots, hpaths, hbase, hempty]
      rfl
    rw [Scope.allFiles, hroots, List.flatMap_singleton] at hfile
    have hroot := root_of_mem_filesAt hfile
    rw [Scope.resolve, hbase, hempty] at hroot
    exact absurd hroot (root_ne_empty_of_slashes hne hempty)
  · have hparts : ∀ name ∈ below, Path.IsPart name := fun name hname => (hnames name hname).toIsPart
    have hrelative : ∀ text, session.relativePath text =
        relativeTo (withoutTrailingSlashes base) text := by
      intro text
      rw [Session.relativePath, Session.basePath, hscope]
      simp only [hbase, String.isEmpty_iff, hempty, if_false]
    have hpath := ofString_withoutTrailingSlashes hempty
    have hplain := isPlain_iff hempty hbelow hparts
    simp only [fileBelow, hpath] at hplain
    rw [locates_iff, hrelative, hplain]

/-- A session with one file, in the directory `src`, and a base. -/
def oneFileSession (base : String) : Session where
  settings := { basePath := some base }
  files := ⟨[(["src", "a.php"], .file [] true)]⟩
  scope := some (Scope.ofSettings { basePath := some base })

def oneFile : Path := ⟨"", ["src", "a.php"]⟩

/-- The one file is discovered whenever the scope resolves to its directory. -/
theorem mem_allFiles_oneFileSession {base : String} {scope : Scope}
    (h : scope.roots.map scope.resolve = [⟨"", ["src"]⟩]) :
    oneFile ∈ scope.allFiles (oneFileSession base).files := by
  have hfollow : (oneFileSession base).files.follow (Tree.start ⟨"", ["src"]⟩) ["src"] =
      some ["src"] := by
    simp only [oneFileSession]
    decide
  have hbelow : (oneFileSession base).files.namesBelow ["src"] = [["a.php"]] := by
    simp only [oneFileSession]
    decide
  have hlisted : (oneFileSession base).files.filesBelow ⟨"", ["src"]⟩ = [oneFile] :=
    Tree.filesBelow_of_pairwise hfollow hbelow (List.pairwise_singleton _ _)
  have hplace : Scope.filesAt (oneFileSession base).files ⟨"", ["src"]⟩ = [oneFile] := by
    rw [← hlisted]
    simp only [oneFileSession]
    exact (if_neg (by decide)).trans (if_pos (by decide))
  rw [Scope.allFiles, ← List.flatMap_map, h, List.flatMap_singleton, hplace]
  exact List.mem_singleton_self oneFile

theorem isBelow_oneFile : Path.IsBelow ⟨"", ["src"]⟩ oneFile := by
  refine ⟨["a.php"], List.cons_ne_nil _ _, ?_, rfl⟩
  intro name hname
  rw [List.mem_singleton.mp hname]
  exact ⟨⟨by decide, by decide, by decide⟩, by decide⟩

/-- Written with a dot in front, the base is not found in front of the file, although the file is
found below it: from the base, the name of the file leads nowhere. -/
theorem relativePath_not_locates_dotted :
    oneFile ∈ (Scope.ofSettings { basePath := some "./src" }).allFiles
      (oneFileSession "./src").files ∧
    (Path.ofString "./src").IsBelow oneFile ∧
    ¬ Locates "./src" ((oneFileSession "./src").relativePath oneFile.text) oneFile := by
  have hpath : Path.ofString "./src" = ⟨"", ["src"]⟩ := by decide
  refine ⟨mem_allFiles_oneFileSession (by decide), hpath ▸ isBelow_oneFile, ?_⟩
  unfold Locates
  decide

/-- A slash at the end of the base does no harm. -/
theorem relativePath_locates_slash :
    oneFile ∈ (Scope.ofSettings { basePath := some "src/" }).allFiles
      (oneFileSession "src/").files ∧
    (Path.ofString "src/").IsBelow oneFile ∧
    Locates "src/" ((oneFileSession "src/").relativePath oneFile.text) oneFile := by
  have hpath : Path.ofString "src/" = ⟨"", ["src"]⟩ := by decide
  have hmem : oneFile ∈ (Scope.ofSettings { basePath := some "src/" }).allFiles
      (oneFileSession "src/").files := mem_allFiles_oneFileSession (by decide)
  have hbelow : (Path.ofString "src/").IsBelow oneFile := hpath ▸ isBelow_oneFile
  refine ⟨hmem, hbelow, ?_⟩
  have hplain : IsPlain "src/" oneFile :=
    .inl ⟨by decide, by decide +kernel, by decide +kernel, by decide +kernel⟩
  exact (relativePath_locates_iff (oneFileSession "src/") rfl rfl rfl (by decide) hmem hbelow).mpr
    hplain

end PhpAudit.Audit
