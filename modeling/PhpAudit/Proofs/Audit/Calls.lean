import Mathlib.Data.List.Forall2
import Mathlib.Data.List.Sort
import PhpAudit.Audit.Calls

/-!
# What a search for calls reports

An analysis that looks for calls goes through a tree once for every entry of its table, and then
sorts what it has found by its place. Two things can go wrong with that: a node may be found twice
or not at all, and the order of calls that start at one place, as chained calls do, is not told by
the sort. The sort is stable, so such calls keep the order of the search: first that of the table,
then that of the walk.

`reports_inOrder` says so for every search whose entries exclude one another: its issues are those
of the wanted nodes, one for each occurrence in the walk, in the order of `orderKey`. As the order
is strict, it leaves no room for another list of finds.
-/

namespace PhpAudit.Audit

open Data Report Syntax

/-! ## Stable sorting -/

/-- Sorting keeps the order of what it does not tell apart. -/
theorem pairwise_mergeSort_stable {α : Type} {le : α → α → Bool} {R : α → α → Prop} {l : List α}
    (trans : ∀ a b c, le a b → le b c → le a c) (total : ∀ a b, le a b || le b a)
    (h : l.Pairwise R) :
    (l.mergeSort le).Pairwise fun a b => le a b = true ∧ (le b a = true → R a b) := by
  refine (List.pairwise_mergeSort trans total l).and ?_
  induction h with
  | nil => simp
  | @cons a rest hhead _ ih =>
    -- the head is put behind what is strictly before it, and in front of all that ties with it
    obtain ⟨before, after, hsorted, hrest, hbefore⟩ := List.mergeSort_cons trans total a rest
    have hmem : ∀ b ∈ after, b ∈ rest := fun b hb => by
      have hb' : b ∈ rest.mergeSort le := by
        rw [hrest]
        exact List.mem_append_right _ hb
      exact List.mem_mergeSort.mp hb'
    rw [hrest] at ih
    obtain ⟨h₁, h₂, h₁₂⟩ := List.pairwise_append.mp ih
    rw [hsorted]
    refine List.pairwise_append.mpr
      ⟨h₁, List.pairwise_cons.mpr ⟨fun b hb _ => hhead b (hmem b hb), h₂⟩, fun b hb c hc => ?_⟩
    rcases List.mem_cons.mp hc with rfl | hc
    · intro hle
      have hnot := hbefore b hb
      rw [hle] at hnot
      exact absurd hnot Bool.false_ne_true
    · exact h₁₂ b hb c hc

/-! ## The order of a report -/

/-- Where a node starts: its line, then its column. -/
def position (node : Node) : List Int := [node.startLine, node.startColumn]

/-- What orders the finds of a report: where the node starts, then the rank of the entry that it was
found for, then its place in the walk. -/
def orderKey (rank : Node → Nat) (find : Node × Nat) : List Int :=
  [find.1.startLine, find.1.startColumn, rank find.1, find.2]

/-- What `startsBy` compares. -/
theorem startsBy_iff {a b : Node} :
    startsBy a b = true ↔
      a.startLine < b.startLine ∨ a.startLine = b.startLine ∧ a.startColumn ≤ b.startColumn := by
  simp [startsBy]

/-- Starts are compared in a row. -/
theorem startsBy_trans {a b c : Node} (hab : startsBy a b = true) (hbc : startsBy b c = true) :
    startsBy a c = true := by
  rw [startsBy_iff] at *
  omega

/-- Any two starts can be compared. -/
theorem startsBy_total (a b : Node) : (startsBy a b || startsBy b a) = true := by
  rw [Bool.or_eq_true, startsBy_iff, startsBy_iff]
  omega

/-- A find comes before another one when it starts no later and wins the ties. -/
theorem orderKey_lt {rank : Node → Nat} {a b : Node × Nat} (hstart : startsBy a.1 b.1 = true)
    (htie : startsBy b.1 a.1 = true →
      rank a.1 < rank b.1 ∨ rank a.1 = rank b.1 ∧ a.2 < b.2) :
    orderKey rank a < orderKey rank b := by
  rw [startsBy_iff] at hstart htie
  simp only [orderKey, List.cons_lt_cons_iff, List.lt_irrefl, and_false, or_false]
  omega

/-- A node that starts before another one comes before it, wherever both stand in the walk. -/
theorem orderKey_lt_of_position_lt {rank : Node → Nat} {a b : Node × Nat}
    (h : position a.1 < position b.1) : orderKey rank a < orderKey rank b := by
  simp only [position, orderKey, List.cons_lt_cons_iff, List.lt_irrefl, and_false, or_false] at *
  omega

/-- The finds of a report: every occurrence of a wanted node in the walk, in the order of
`orderKey`. -/
structure InReportOrder (forest : Forest) (wanted : Node → Prop) (rank : Node → Nat)
    (finds : List (Node × Nat)) : Prop where
  mem_iff : ∀ node place, (node, place) ∈ finds ↔ (walk forest)[place]? = some node ∧ wanted node
  ordered : finds.Pairwise fun a b => orderKey rank a < orderKey rank b

namespace InReportOrder

variable {forest : Forest} {wanted : Node → Prop} {rank : Node → Nat} {finds : List (Node × Nat)}

/-- Finds that are kept for what they are stay in order. -/
theorem filter (h : InReportOrder forest wanted rank finds) (keeps : Node → Bool) :
    InReportOrder forest (fun node => wanted node ∧ keeps node = true) rank
      (finds.filter fun find => keeps find.1) where
  mem_iff node place := by rw [List.mem_filter, h.mem_iff, and_assoc]
  ordered := h.ordered.filter _

/-- The order leaves only one list of finds. -/
theorem unique {others : List (Node × Nat)} (h : InReportOrder forest wanted rank finds)
    (h' : InReportOrder forest wanted rank others) : finds = others := by
  let before (a b : Node × Nat) : Prop := orderKey rank a < orderKey rank b
  have : Std.Irrefl before := ⟨fun a => List.lt_irrefl (orderKey rank a)⟩
  have : Std.Antisymm before := ⟨fun a b hab hba => absurd hba (List.lt_asymm hab)⟩
  exact List.Pairwise.eq_of_mem_iff (r := before) h.ordered h'.ordered fun ⟨node, place⟩ => by
    rw [h.mem_iff, h'.mem_iff]

end InReportOrder

/-! ## Occurrences -/

/-- The nodes that satisfy a condition, each with its place in the walk. -/
def occurrences (forest : Forest) (condition : Node → Bool) : List (Node × Nat) :=
  (walk forest).zipIdx.filter fun find => condition find.1

section Occurrences

variable {forest : Forest} {condition : Node → Bool}

/-- An occurrence is told by its place in the walk. -/
theorem mem_occurrences {find : Node × Nat} :
    find ∈ occurrences forest condition ↔
      (walk forest)[find.2]? = some find.1 ∧ condition find.1 = true := by
  rw [occurrences, List.mem_filter, List.mem_zipIdx_iff_getElem?]

/-- Occurrences come in the order of their places. -/
theorem pairwise_occurrences (forest : Forest) (condition : Node → Bool) :
    (occurrences forest condition).Pairwise fun a b => a.2 < b.2 := by
  have h := List.pairwise_lt_range' (s := 0) (n := (walk forest).length)
  rw [← List.zipIdx_map_snd, List.pairwise_map] at h
  exact h.filter _

/-- Without their places, occurrences are what a filter leaves of the walk. -/
theorem map_fst_occurrences (forest : Forest) (condition : Node → Bool) :
    (occurrences forest condition).map Prod.fst = (walk forest).filter condition := by
  conv_rhs => rw [← List.zipIdx_map_fst 0 (walk forest), List.filter_map]
  rfl

end Occurrences

/-- When the wanted nodes start one after the other, the walk has them in the order of the report
already. -/
theorem InReportOrder.map_fst_eq_filter {forest : Forest} {wanted : Node → Prop}
    {rank : Node → Nat} {finds : List (Node × Nat)} [DecidablePred wanted]
    (h : InReportOrder forest wanted rank finds)
    (hpositions : ((walk forest).filter wanted).Pairwise fun a b => position a < position b) :
    finds.map Prod.fst = (walk forest).filter wanted := by
  rw [← map_fst_occurrences, List.pairwise_map] at hpositions
  rw [← map_fst_occurrences]
  refine congrArg _ (h.unique ⟨fun node place => ?_, ?_⟩)
  · rw [mem_occurrences, decide_eq_true_iff]
  · exact hpositions.imp orderKey_lt_of_position_lt

/-! ## Searching entry by entry -/

section Search

variable {ε : Type} {entries : List ε} {isFor : ε → Node → Bool}

/-- Entries of which no two are for the same node. -/
def Exclusive (entries : List ε) (isFor : ε → Node → Bool) : Prop :=
  entries.Pairwise fun a b => ∀ node, isFor a node = true → isFor b node = false

/-- The rank of the first entry that is for a node. -/
def rankIn (entries : List ε) (isFor : ε → Node → Bool) (node : Node) : Nat :=
  entries.findIdx fun entry => isFor entry node

/-- What a search finds, entry by entry: the occurrences, each with the entry that it was found
for. -/
def searched (forest : Forest) (entries : List ε) (isFor : ε → Node → Bool) :
    List ((Node × Nat) × ε) :=
  entries.flatMap fun entry => (occurrences forest (isFor entry)).map fun find => (find, entry)

/-- What a search finds, put in the order in which the nodes start. -/
def sorted (forest : Forest) (entries : List ε) (isFor : ε → Node → Bool) :
    List ((Node × Nat) × ε) :=
  (searched forest entries isFor).mergeSort fun s t => startsBy s.1.1 t.1.1

/-- Entries exclude one another when the nodes that they are for tell them apart. -/
theorem exclusive_of_nodup {κ : Type} {key : ε → κ} (hnodup : (entries.map key).Nodup)
    (hkey : ∀ a b node, isFor a node = true → isFor b node = true → key a = key b) :
    Exclusive entries isFor := by
  refine (List.pairwise_map.mp hnodup).imp fun {a b} hne node ha => ?_
  cases hb : isFor b node with
  | false => rfl
  | true => exact absurd (hkey a b node ha hb) hne

/-- When entries exclude one another, the rank of a node is that of the entry that is for it. -/
theorem rankIn_eq (hexclusive : Exclusive entries isFor) {i : Nat} (hi : i < entries.length)
    {node : Node} (hfor : isFor entries[i] node = true) : rankIn entries isFor node = i := by
  refine (List.findIdx_eq hi).mpr ⟨hfor, fun j hj => ?_⟩
  cases hearlier : isFor entries[j] node with
  | false => rfl
  | true =>
    have hnot := List.pairwise_iff_getElem.mp hexclusive j i _ hi hj node hearlier
    rw [hfor] at hnot
    exact absurd hnot Bool.noConfusion

/-- What a search finds occurs in the walk, and is for its entry. -/
theorem mem_searched {forest : Forest} {find : Node × Nat} {entry : ε} :
    (find, entry) ∈ searched forest entries isFor ↔
      entry ∈ entries ∧ (walk forest)[find.2]? = some find.1 ∧ isFor entry find.1 = true := by
  rw [searched, List.mem_flatMap]
  constructor
  · rintro ⟨_, hentry, hmem⟩
    obtain ⟨_, hfound, heq⟩ := List.mem_map.mp hmem
    cases heq
    exact ⟨hentry, mem_occurrences.mp hfound⟩
  · rintro ⟨hentry, hfound⟩
    exact ⟨entry, hentry, List.mem_map.mpr ⟨find, mem_occurrences.mpr hfound, rfl⟩⟩

/-- A search finds by rank, and by place within a rank. -/
theorem pairwise_searched (forest : Forest) (hexclusive : Exclusive entries isFor) :
    (searched forest entries isFor).Pairwise fun s t =>
      rankIn entries isFor s.1.1 < rankIn entries isFor t.1.1 ∨
        rankIn entries isFor s.1.1 = rankIn entries isFor t.1.1 ∧ s.1.2 < t.1.2 := by
  have hrank {i : Nat} (hi : i < entries.length) {t : (Node × Nat) × ε}
      (ht : t ∈ (occurrences forest (isFor entries[i])).map fun find => (find, entries[i])) :
      rankIn entries isFor t.1.1 = i := by
    obtain ⟨find, hfound, rfl⟩ := List.mem_map.mp ht
    exact rankIn_eq hexclusive hi (mem_occurrences.mp hfound).2
  refine List.pairwise_flatMap.mpr ⟨fun entry hentry => ?_, ?_⟩
  · obtain ⟨i, hi, rfl⟩ := List.getElem_of_mem hentry
    have hplaces := pairwise_occurrences forest (isFor entries[i])
    refine List.pairwise_map.mpr (hplaces.imp_of_mem fun hs ht hst => .inr ⟨?_, hst⟩)
    rw [hrank hi (List.mem_map_of_mem hs), hrank hi (List.mem_map_of_mem ht)]
  · refine List.pairwise_iff_getElem.mpr fun i j hi hj hij s hs t ht => .inl ?_
    rw [hrank hi hs, hrank hj ht]
    exact hij

/-- What a search finds, once sorted, is in the order of the report. -/
theorem inReportOrder_sorted (forest : Forest) (hexclusive : Exclusive entries isFor) :
    InReportOrder forest (fun node => ∃ entry ∈ entries, isFor entry node = true)
      (rankIn entries isFor) ((sorted forest entries isFor).map Prod.fst) where
  mem_iff node place := by
    rw [List.mem_map]
    constructor
    · rintro ⟨⟨_, entry⟩, hmem, rfl⟩
      obtain ⟨hentry, hplace, hfor⟩ := mem_searched.mp (List.mem_mergeSort.mp hmem)
      exact ⟨hplace, entry, hentry, hfor⟩
    · rintro ⟨hplace, entry, hentry, hfor⟩
      have hmem : ((node, place), entry) ∈ searched forest entries isFor :=
        mem_searched.mpr ⟨hentry, hplace, hfor⟩
      exact ⟨_, List.mem_mergeSort.mpr hmem, rfl⟩
  ordered := by
    have htrans (s t u : (Node × Nat) × ε) (hst : startsBy s.1.1 t.1.1 = true)
        (htu : startsBy t.1.1 u.1.1 = true) : startsBy s.1.1 u.1.1 = true :=
      startsBy_trans hst htu
    have htotal (s t : (Node × Nat) × ε) :
        (startsBy s.1.1 t.1.1 || startsBy t.1.1 s.1.1) = true := startsBy_total _ _
    have hstable := pairwise_mergeSort_stable htrans htotal (pairwise_searched forest hexclusive)
    exact List.pairwise_map.mpr (hstable.imp fun h => orderKey_lt h.1 h.2)

/-- A search without places finds the same, in the same order. -/
theorem inOrder_eq_map_sorted (forest : Forest) (entries : List ε) (isFor : ε → Node → Bool) :
    inOrder (entries.flatMap fun entry =>
        ((walk forest).filter (isFor entry)).map fun node => (node, entry)) =
      (sorted forest entries isFor).map fun t => (t.1.1, t.2) := by
  have hforget : (entries.flatMap fun entry =>
      ((walk forest).filter (isFor entry)).map fun node => (node, entry)) =
        (searched forest entries isFor).map fun t => (t.1.1, t.2) := by
    rw [searched, List.map_flatMap]
    refine List.flatMap_congr fun entry _ => ?_
    rw [← map_fst_occurrences, List.map_map, List.map_map]
    rfl
  rw [hforget, inOrder, sorted]
  exact (List.map_mergeSort (f := fun t : (Node × Nat) × ε => (t.1.1, t.2))
    fun _ _ _ _ => rfl).symm

end Search

/-! ## Reports -/

/-- The issues of a file report the wanted nodes of its tree: there is one for each occurrence, in
the order of the report, and it tells of the node what is asked. -/
def Reports (forest : Forest) (wanted : Node → Prop) (rank : Node → Nat)
    (tells : Node → Issue → Prop) (issues : List Issue) : Prop :=
  ∃ finds, InReportOrder forest wanted rank finds ∧
    List.Forall₂ (fun find issue => tells find.1 issue) finds issues

/-- What is reported depends on which nodes are wanted, not on how they are told. -/
theorem Reports.congr {forest : Forest} {wanted wanted' : Node → Prop} {rank : Node → Nat}
    {tells : Node → Issue → Prop} {issues : List Issue}
    (hwanted : ∀ node, wanted node ↔ wanted' node)
    (h : Reports forest wanted rank tells issues) : Reports forest wanted' rank tells issues := by
  obtain ⟨finds, horder, hsaid⟩ := h
  refine ⟨finds, ⟨fun node place => ?_, horder.ordered⟩, hsaid⟩
  rw [horder.mem_iff, hwanted]

/-- When the wanted nodes start one after the other, they are reported as the walk comes to them. -/
theorem Reports.forall₂_filter {forest : Forest} {wanted : Node → Prop} {rank : Node → Nat}
    {tells : Node → Issue → Prop} {issues : List Issue} [DecidablePred wanted]
    (h : Reports forest wanted rank tells issues)
    (hpositions : ((walk forest).filter wanted).Pairwise fun a b => position a < position b) :
    List.Forall₂ tells ((walk forest).filter wanted) issues := by
  obtain ⟨finds, horder, hsaid⟩ := h
  rw [← horder.map_fst_eq_filter hpositions, List.forall₂_map_left_iff]
  exact hsaid

/-- **A sorted search reports what it looks for.** It misses no occurrence and finds none twice, for
every tree and every table whose entries exclude one another. -/
theorem reports_inOrder {ε : Type} {entries : List ε} {isFor : ε → Node → Bool} (forest : Forest)
    (hexclusive : Exclusive entries isFor) (keeps : Node → Bool) (issueOf : Node × ε → Issue)
    {tells : Node → Issue → Prop} (htells : ∀ entry ∈ entries, ∀ node,
      isFor entry node = true → tells node (issueOf (node, entry))) :
    Reports forest (fun node => (∃ entry ∈ entries, isFor entry node = true) ∧ keeps node = true)
      (rankIn entries isFor) tells
      (((inOrder (entries.flatMap fun entry =>
        ((walk forest).filter (isFor entry)).map fun node => (node, entry))).filter
          fun found => keeps found.1).map issueOf) := by
  refine ⟨_, (inReportOrder_sorted forest hexclusive).filter keeps, ?_⟩
  rw [inOrder_eq_map_sorted, List.filter_map, List.filter_map, List.map_map,
    List.forall₂_map_left_iff, List.forall₂_map_right_iff]
  refine List.forall₂_same.mpr ?_
  rintro ⟨find, entry⟩ hmem
  obtain ⟨hentry, _, hfor⟩ := mem_searched.mp (List.mem_mergeSort.mp (List.mem_filter.mp hmem).1)
  exact htells entry hentry find.1 hfor

/-! ## What a report comes to -/

/-- An issue names the start of a node, in its file as seen from the directory that holds the
files. -/
def StandsAt (session : Session) (file : String) (node : Node) (issue : Issue) : Prop :=
  issue.location = some {
    file := .text (session.relativePath file)
    line := .int node.startLine
    column := .int node.startColumn }

/-- The issues of all files are as severe as the findings in them. -/
theorem severe_issuesInAll (session : Session) {findings : String → List Finding}
    (hsevere : ∀ file, ∀ finding ∈ findings file,
      Analyzer.failureLevel ≤ finding.severity.level) :
    ∀ issue ∈ issuesInAll session findings,
      Analyzer.failureLevel ≤ issue.severity.level := by
  intro issue hissue
  obtain ⟨file, -, hmem⟩ := List.mem_flatMap.mp hissue
  obtain ⟨finding, hfinding, rfl⟩ := List.mem_map.mp hmem
  exact hsevere file finding hfinding

/-- A result that is a failure exactly when it has issues, and counts them then. -/
structure FailsOnIssues (found : String) (result : Result) : Prop where
  passed : result.issues = [] → result.status = .passed
  failed : result.issues ≠ [] → result.status = .failed ∧
    result.message = .text ("Found " ++ Number.Integer.text result.issues.length ++ " " ++ found)

/-- When all issues are severe, a result keeps them and fails on them. -/
theorem resultFor_failsOnIssues (description : Description) (session : Session)
    (found none : String) {issues : List Issue}
    (hsevere : ∀ issue ∈ issues, Analyzer.failureLevel ≤ issue.severity.level) :
    (resultFor description session (countMessage issues found none) issues).issues = issues ∧
      FailsOnIssues found
        (resultFor description session (countMessage issues found none) issues) := by
  cases issues with
  | nil => exact ⟨rfl, ⟨fun _ => rfl, fun h => absurd rfl h⟩⟩
  | cons issue rest =>
    have hstatus : Analyzer.statusOf (issue :: rest) = .failed := by
      have hany : (issue :: rest).any (fun i => Analyzer.failureLevel ≤ i.severity.level) = true :=
        List.any_eq_true.mpr
          ⟨issue, List.mem_cons_self, decide_eq_true (hsevere issue List.mem_cons_self)⟩
      rw [Analyzer.statusOf, hany]
      rfl
    have hissues : (resultFor description session (countMessage (issue :: rest) found none)
        (issue :: rest)).issues = issue :: rest := by
      rw [resultFor, hstatus]
      rfl
    refine ⟨hissues, ⟨fun h => ?_, fun _ => ⟨hstatus, ?_⟩⟩⟩
    · rw [hissues] at h
      cases h
    · rw [hissues]
      rfl

end PhpAudit.Audit
