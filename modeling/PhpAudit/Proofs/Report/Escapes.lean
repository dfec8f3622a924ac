import PhpAudit.Proofs.Data.Spelling
import PhpAudit.Proofs.Report.Listing
import PhpAudit.Proofs.Text.Lines

/-!
# Escape characters in reports

A report writes an escape character of its own only to change the ink. Everything else that it
writes is set from the texts of the results, and setting a text takes out the controls that would
move the cursor, but no escape character. A report without colours is therefore free of them exactly
when the texts that it shows are (`Collection.escapeFree_iff`). Values that are no texts are spelled
out, so they have none.
-/

namespace PhpAudit

open Data Number

namespace Report

/-! ## Texts without escape characters -/

/-- A text without escape characters. -/
def EscapeFree (text : String) : Prop := escapeChar ∉ text.toList

instance (text : String) : Decidable (EscapeFree text) :=
  inferInstanceAs (Decidable (escapeChar ∉ text.toList))

/-- Joined texts hold no escape iff neither of them does. -/
theorem escapeFree_append_iff {front back : String} :
    EscapeFree (front ++ back) ↔ EscapeFree front ∧ EscapeFree back := by
  rw [EscapeFree, String.toList_append, List.mem_append, not_or]
  exact Iff.rfl

theorem EscapeFree.append {front back : String} (hfront : EscapeFree front)
    (hback : EscapeFree back) : EscapeFree (front ++ back) :=
  escapeFree_append_iff.mpr ⟨hfront, hback⟩

/-- Whether a text behind a label has escape characters is up to the text. -/
theorem EscapeFree.append_iff {front : String} (hfront : EscapeFree front) {back : String} :
    EscapeFree (front ++ back) ↔ EscapeFree back :=
  escapeFree_append_iff.trans (and_iff_right hfront)

/-- The escape character is not visible. -/
theorem escapeFree_of_isVisible {text : String} (h : IsVisible text.toList) : EscapeFree text := by
  intro hmem
  exact absurd (h escapeChar hmem) (by decide)

end Report

/-- A value that is no text with an escape character. Texts inside of it may have some. -/
def Data.Value.EscapeFree (value : Value) : Prop := ∀ s, value = .text s → Report.EscapeFree s

/-- What is no text is spelled out, and what is spelled out is visible. -/
theorem Data.Value.escapeFree_shown_iff {value : Value} {text : String}
    (h : value.shown = .ok text) : Report.EscapeFree text ↔ value.EscapeFree := by
  have hspelled (h : value.spelled = .ok text) : Report.EscapeFree text :=
    Report.escapeFree_of_isVisible (value.isVisible_spelled text h)
  cases value with
  | text s =>
    cases h
    constructor
    · rintro h _ ⟨⟩
      exact h
    · exact fun h => h _ rfl
  | _ => exact iff_of_true (hspelled h) nofun

namespace Report

/-! ## What a report shows -/

/-- No text of an issue that a report shows has an escape character. Code is shown in full reports
only. -/
structure Issue.ShownPlain (verbose : Bool) (issue : Issue) : Prop where
  message : issue.message.EscapeFree
  place : ∀ location ∈ issue.location, ∀ place, location.text = .ok place → EscapeFree place
  recommendation : issue.recommendation.EscapeFree
  code : verbose = true → issue.code.EscapeFree

/-- No text of a result that a report shows has an escape character. -/
structure Result.ShownPlain (verbose : Bool) (result : Result) : Prop where
  analyzerId : result.analyzerId.EscapeFree
  message : result.message.EscapeFree
  issues : ∀ issue ∈ result.issues, issue.ShownPlain verbose

/-- Items whose texts have no escape characters. -/
def AreEscapeFree (items : List Item) : Prop := ∀ item ∈ items, EscapeFree item.text

theorem areEscapeFree_nil : AreEscapeFree [] := nofun

theorem areEscapeFree_cons_iff {item : Item} {items : List Item} :
    AreEscapeFree (item :: items) ↔ EscapeFree item.text ∧ AreEscapeFree items :=
  List.forall_mem_cons

theorem areEscapeFree_cons {item : Item} {items : List Item} (hitem : EscapeFree item.text)
    (hitems : AreEscapeFree items) : AreEscapeFree (item :: items) :=
  areEscapeFree_cons_iff.mpr ⟨hitem, hitems⟩

/-- Items one list behind the other hold no escape iff both lists do not. -/
theorem areEscapeFree_append_iff {front back : List Item} :
    AreEscapeFree (front ++ back) ↔ AreEscapeFree front ∧ AreEscapeFree back :=
  List.forall_mem_append

/-- What lists things one after the other has no escape characters if no entry has. -/
theorem areEscapeFree_flatMap_iff {α β : Type} {ListedAs : α → β → Prop} {layout : β → List Item}
    {IsPlain : α → Prop} {xs : List α} {entries : List β}
    (hstep : ∀ x ∈ xs, ∀ entry, ListedAs x entry → (AreEscapeFree (layout entry) ↔ IsPlain x))
    (hlisted : List.Forall₂ ListedAs xs entries) :
    AreEscapeFree (entries.flatMap layout) ↔ ∀ x ∈ xs, IsPlain x := by
  induction hlisted with
  | nil => exact iff_of_true areEscapeFree_nil nofun
  | cons hfirst _ ih =>
    obtain ⟨hx, hxs⟩ := List.forall_mem_cons.mp hstep
    rw [List.flatMap_cons, areEscapeFree_append_iff, hx _ hfirst, ih hxs, List.forall_mem_cons]

/-- The items at the top are visible. -/
theorem Outline.areEscapeFree_figures (outline : Outline) : AreEscapeFree outline.figures :=
  fun item hitem => escapeFree_of_isVisible (outline.isPlainLine_figures item hitem).visible

variable {verbose : Bool}

/-- The listed code holds no escape iff the code does not, where it is shown. -/
theorem areEscapeFree_codeLayout_iff {code : Value} {listed : Option (List (List Char))}
    (hlisted : CodeListedAs verbose code listed) :
    AreEscapeFree (codeLayout listed) ↔ (verbose = true → code.EscapeFree) := by
  cases hlisted with
  | brief => exact iff_of_true areEscapeFree_nil nofun
  | missing => exact iff_of_true areEscapeFree_nil fun _ => nofun
  | full code =>
    have htitle : EscapeFree "      Code:" := by decide
    have hindent : EscapeFree "        " := by decide
    rw [codeLayout, Option.toList_some, List.flatMap_singleton, areEscapeFree_cons_iff,
      and_iff_right htitle, AreEscapeFree, List.forall_mem_map]
    constructor
    · rintro h - _ ⟨⟩ hmem
      obtain ⟨line, hline, hc⟩ := Text.exists_mem_lines hmem (by decide)
      have hitem := hindent.append_iff.mp (h line hline)
      rw [EscapeFree, String.toList_ofList] at hitem
      exact hitem hc
    · intro h line hline
      refine hindent.append_iff.mpr ?_
      rw [EscapeFree, String.toList_ofList]
      exact fun hmem => h rfl code rfl (Text.mem_of_mem_lines hline hmem)

/-- The listed place holds no escape iff its spelling does not. -/
theorem areEscapeFree_placeItems_iff {location : Option Location} {place : Option String}
    (hplace : Option.Rel Location.ShownAs location place) :
    AreEscapeFree (placeItems place) ↔
      ∀ l ∈ location, ∀ text, l.text = .ok text → EscapeFree text := by
  have hlabel : EscapeFree "      Location: " := by decide
  cases hplace with
  | none => exact iff_of_true areEscapeFree_nil nofun
  | @some l place hplace =>
    have hitem : AreEscapeFree (placeItems (some place)) ↔ EscapeFree place :=
      areEscapeFree_cons_iff.trans ((and_iff_left areEscapeFree_nil).trans hlabel.append_iff)
    rw [hitem]
    constructor
    · rintro h _ ⟨⟩ text htext
      cases (Location.text_eq_ok_iff.mpr hplace).symm.trans htext
      exact h
    · exact fun h => h l rfl place (Location.text_eq_ok_iff.mpr hplace)

/-- The entry of an issue holds no escape iff what it shows of the issue holds none. -/
theorem Issue.ListedAs.areEscapeFree_iff {issue : Issue} {entry : IssueEntry}
    (hlisted : issue.ListedAs verbose entry) :
    AreEscapeFree entry.items ↔ issue.ShownPlain verbose := by
  have hbullet : EscapeFree "    • " := by decide
  have hadvice : EscapeFree "      Recommendation: " := by decide
  have hseverity : EscapeFree ("      Severity: " ++ entry.severity.text.capitalize) := by
    rw [← label_eq_capitalize]
    cases entry.severity <;> decide
  have hmessage := Value.escapeFree_shown_iff hlisted.message
  have hrecommendation := Value.escapeFree_shown_iff hlisted.recommendation
  rw [← hbullet.append_iff] at hmessage
  rw [← hadvice.append_iff] at hrecommendation
  rw [IssueEntry.items, areEscapeFree_append_iff, areEscapeFree_append_iff,
    areEscapeFree_append_iff, areEscapeFree_cons_iff, areEscapeFree_cons_iff,
    areEscapeFree_cons_iff, areEscapeFree_placeItems_iff hlisted.place,
    areEscapeFree_codeLayout_iff hlisted.code]
  constructor
  · rintro ⟨⟨⟨⟨message, -⟩, place⟩, -, recommendation, -⟩, code⟩
    exact ⟨hmessage.mp message, place, hrecommendation.mp recommendation, code⟩
  · rintro ⟨message, place, recommendation, code⟩
    exact ⟨⟨⟨⟨hmessage.mpr message, areEscapeFree_nil⟩, place⟩, hseverity,
      hrecommendation.mpr recommendation, areEscapeFree_nil⟩, code⟩

/-- The entry of a result holds no escape iff what it shows of the result holds none. -/
theorem Result.ListedAs.areEscapeFree_iff {result : Result} {entry : ResultEntry}
    (hlisted : result.ListedAs verbose entry) {sign : String} (hsign : EscapeFree sign)
    (colour : Colour) :
    AreEscapeFree (entry.items sign colour) ↔ result.ShownPlain verbose := by
  have hindent : EscapeFree "  " := by decide
  have htitle : EscapeFree "  Issues:" := by decide
  have hid := Value.escapeFree_shown_iff hlisted.analyzerId
  have hmessage := Value.escapeFree_shown_iff hlisted.message
  rw [← (hsign.append (by decide : EscapeFree " ")).append_iff] at hid
  rw [← hindent.append_iff] at hmessage
  have hissues : AreEscapeFree (if entry.issues = [] then []
      else ⟨some (.colour colour), "  Issues:"⟩ :: entry.issues.flatMap IssueEntry.items) ↔
      ∀ issue ∈ result.issues, issue.ShownPlain verbose := by
    rw [← areEscapeFree_flatMap_iff (fun _ _ _ h => h.areEscapeFree_iff) hlisted.issues]
    split
    next hempty => rw [hempty, List.flatMap_nil]
    next => exact areEscapeFree_cons_iff.trans (and_iff_right htitle)
  rw [ResultEntry.items, areEscapeFree_append_iff, areEscapeFree_cons_iff, areEscapeFree_cons_iff,
    areEscapeFree_cons_iff, hissues]
  constructor
  · rintro ⟨⟨-, analyzerId, message, -⟩, issues⟩
    exact ⟨hid.mp analyzerId, hmessage.mp message, issues⟩
  · rintro ⟨analyzerId, message, issues⟩
    exact ⟨⟨by decide, hid.mpr analyzerId, hmessage.mpr message, areEscapeFree_nil⟩, issues⟩

/-- The entry of a section holds no escape iff none of its results shows one. -/
theorem Section.ListedAs.areEscapeFree_iff {collection : Collection} {part : Section}
    (hpart : part ∈ sections verbose) {entry : SectionEntry}
    (hlisted : part.ListedAs verbose collection entry) :
    AreEscapeFree entry.items ↔
      ∀ result ∈ collection.byStatus part.status, result.ShownPlain verbose := by
  have htitles : ∀ part ∈ sections verbose,
      EscapeFree (part.title ++ ":") ∧ EscapeFree part.status.emoji := by
    cases verbose <;> decide
  obtain ⟨htitle, hsign⟩ := htitles part hpart
  have hrule : EscapeFree (String.ofList (List.replicate 60 '─')) := by
    rw [EscapeFree, String.toList_ofList]
    exact fun hmem => absurd (List.eq_of_mem_replicate hmem) (by decide)
  have hlast : AreEscapeFree [⟨none, ""⟩] := areEscapeFree_cons (by decide) areEscapeFree_nil
  rw [← hlisted.sign] at hsign
  rw [← areEscapeFree_flatMap_iff (fun _ _ _ h => h.areEscapeFree_iff hsign entry.colour)
    hlisted.entries, SectionEntry.items]
  split
  next hempty => rw [hempty, List.flatMap_nil]
  next =>
    rw [← hlisted.title] at htitle
    rw [areEscapeFree_append_iff, areEscapeFree_append_iff, and_iff_left hlast]
    exact and_iff_right (areEscapeFree_cons htitle (areEscapeFree_cons hrule areEscapeFree_nil))

/-! ## Reports -/

section reports

variable {printer : Printer} (hprinter : printer.IsFaithful)

include hprinter

/-- The pieces that a text is set in have no escape characters if the text has none. -/
theorem notMem_pieces {text : String} (htext : EscapeFree text) :
    ∀ pieces ∈ printer.set text.toList, ∀ chars ∈ pieces, escapeChar ∉ chars := by
  intro pieces hpieces chars hchars hc
  rcases hprinter.eq_or_mem hpieces hchars hc with hblank | ⟨hmem, -⟩
  · exact absurd hblank (by decide)
  · exact htext hmem

/-- The title has no escape characters before it is written. -/
theorem notMem_titlePieces :
    ∀ pieces ∈ printer.frame 60 "Analysis Report".toList, ∀ chars ∈ pieces,
      escapeChar ∉ chars := by
  intro pieces hpieces chars hchars hc
  obtain ⟨row, hrow, hmem⟩ := hprinter.mem_titleRows hpieces hchars hc
  have hrows : ∀ row ∈ titleRows, escapeChar ∉ row := by decide +kernel
  exact hrows row hrow hmem

/-- Without colours, the lines of an item have no escape characters just when its text has none. -/
theorem escapeFree_written_iff (item : Item) :
    (∀ line ∈ item.written printer false, escapeChar ∉ line) ↔ EscapeFree item.text := by
  rw [Item.written, inkedLines_false, List.forall_mem_map]
  constructor
  · intro h hmem
    obtain ⟨pieces, hpieces, hc⟩ := hprinter.exists_mem hmem (by decide) (by decide) (by decide)
      (by decide)
    exact h pieces hpieces (List.mem_flatten.mpr hc)
  · intro h pieces hpieces hmem
    obtain ⟨chars, hchars, hc⟩ := List.mem_flatten.mp hmem
    exact notMem_pieces hprinter h pieces hpieces chars hchars hc

/-- Without colours, a report has the escape characters of its items. -/
theorem Outline.escapeFree_written_iff (outline : Outline) :
    EscapeFree (outline.written printer false) ↔ AreEscapeFree outline.items := by
  have hfeed (line : List Char) : escapeChar ∉ line ++ ['\n'] ↔ escapeChar ∉ line := by
    rw [List.mem_append, not_or]
    exact and_iff_left (by decide)
  have htitle : ∀ line ∈ printer.titleLines false, escapeChar ∉ line := by
    rw [hprinter.titleLines_false]
    decide +kernel
  rw [EscapeFree, Outline.written, String.toList_ofList, List.mem_flatMap, not_exists]
  simp only [not_and, hfeed]
  rw [Outline.lines, List.forall_mem_append, and_iff_right htitle, List.forall_mem_flatMap]
  exact forall₂_congr fun item _ => Report.escapeFree_written_iff hprinter item

end reports

namespace Collection

variable {collection : Collection}

/-- Nothing that a report lists has an escape character if no text that it shows has. -/
theorem areEscapeFree_items_iff {outline : Outline}
    (houtline : collection.OutlinedAs verbose outline) :
    AreEscapeFree outline.items ↔
      ∀ result ∈ collection.listed verbose, result.ShownPlain verbose := by
  have hverdict : EscapeFree outline.verdict.item.text := by cases outline.verdict <;> decide
  have hlast := areEscapeFree_cons hverdict areEscapeFree_nil
  have hblank : AreEscapeFree [⟨none, ""⟩] := areEscapeFree_cons (by decide) areEscapeFree_nil
  have hfirst := areEscapeFree_append_iff.mpr ⟨outline.areEscapeFree_figures, hblank⟩
  rw [Outline.items, areEscapeFree_append_iff, and_iff_left hlast, areEscapeFree_append_iff,
    and_iff_right hfirst, ← flatMap_sections, List.forall_mem_flatMap]
  exact areEscapeFree_flatMap_iff (fun _ hpart _ h => h.areEscapeFree_iff hpart) houtline.sections

/-- A report without colours holds no escape iff no listed result shows one. -/
theorem escapeFree_iff {printer : Printer} (hprinter : printer.IsFaithful) {text : String}
    (h : collection.toConsole printer false verbose = .ok text) :
    EscapeFree text ↔ ∀ result ∈ collection.listed verbose, result.ShownPlain verbose := by
  obtain ⟨outline, houtline, rfl⟩ := toConsole_eq_ok_iff.mp h
  rw [outline.escapeFree_written_iff hprinter, areEscapeFree_items_iff houtline]

/-- **A report without colours has the escape characters of its texts.** Well-typed results whose
times can be added are reported without colours by every faithful printer, unless the machine cannot
write a number of a place. The report has no escape character exactly when no text of a failure, a
warning, an error or, in full reports, a success has one: its name, its message, and the message, the
place, the advice and, in full reports, the code of each issue. -/
theorem toConsole_escapeFree_iff {printer : Printer} (hprinter : printer.IsFaithful)
    {total : Binary64} (htyped : ∀ result ∈ collection.results, result.WellTyped)
    (htotal : collection.totalExecutionTime = .ok total) (verbose : Bool) :
    ((∃ text, collection.toConsole printer false verbose = .ok text) ↔
      ∀ result ∈ collection.listed verbose, result.IsShort) ∧
    ∀ text, collection.toConsole printer false verbose = .ok text →
      (EscapeFree text ↔
        ∀ result ∈ collection.byStatus .failed ++ collection.byStatus .warning ++
            collection.byStatus .error ++ if verbose then collection.byStatus .passed else [],
          result.ShownPlain verbose) :=
  ⟨exists_toConsole_iff htyped htotal printer false verbose, fun _ => escapeFree_iff hprinter⟩

end Collection

/-- A failure, what it says, and the code that it is about. -/
def failureAbout (code message : String) : Result :=
  .ofStatus .failed (.text "dynamic-code") (.text message) [{
    message := .text "eval() runs any text as code"
    location := none
    severity := .critical
    recommendation := .text "Call the function itself."
    code := .text code }]

/-- The results of a run that ended in such a failure. -/
def failedRun (code message : String) : Collection := ⟨[failureAbout code message]⟩

/-- The failed run is well typed, whatever its code and message. -/
theorem failedRun_wellTyped (code message : String) :
    ∀ result ∈ (failedRun code message).results, result.WellTyped := by
  rintro _ (_ | ⟨_, ⟨⟩⟩)
  refine ⟨⟨_, rfl⟩, ⟨_, rfl⟩, ?_, ⟨_, rfl⟩⟩
  rintro _ (_ | ⟨_, ⟨⟩⟩)
  exact ⟨⟨_, rfl⟩, nofun, ⟨_, rfl⟩, .inr ⟨_, rfl⟩, ⟨_, rfl⟩, nofun⟩

/-- The failed run has a total time. -/
theorem exists_totalExecutionTime_failedRun (code message : String) :
    ∃ total, (failedRun code message).totalExecutionTime = .ok total := ⟨_, rfl⟩

/-- The issue has no place. -/
theorem failedRun_isShort (verbose : Bool) (code message : String) :
    ∀ result ∈ (failedRun code message).listed verbose, result.IsShort := by
  intro result hresult
  have hmem := Collection.mem_of_mem_listed hresult
  rw [List.mem_singleton.mp hmem]
  rintro _ (_ | ⟨_, ⟨⟩⟩)
  exact nofun

/-- What the failed run shows is its message and, in a verbose report, its code. -/
theorem failedRun_shownPlain_iff (verbose : Bool) (code message : String) :
    (∀ result ∈ (failedRun code message).listed verbose, result.ShownPlain verbose) ↔
      EscapeFree message ∧ (verbose = true → EscapeFree code) := by
  have htext (s : String) : (Value.text s).EscapeFree ↔ EscapeFree s :=
    (Value.escapeFree_shown_iff rfl).symm
  have hlisted : (failedRun code message).listed verbose = [failureAbout code message] := by
    cases verbose <;> rfl
  rw [hlisted, List.forall_mem_singleton]
  constructor
  · intro h
    exact ⟨(htext message).mp h.message, fun hverbose =>
      (htext code).mp ((h.issues _ (List.mem_singleton_self _)).code hverbose)⟩
  · rintro ⟨hmessage, hcode⟩
    refine ⟨(htext _).mpr (by decide), (htext message).mpr hmessage, ?_⟩
    rintro _ (_ | ⟨_, ⟨⟩⟩)
    exact ⟨(htext _).mpr (by decide), nofun, (htext _).mpr (by decide),
      fun hverbose => (htext code).mpr (hcode hverbose)⟩

/-- Code that changes the ink does so in the full report, and not in the brief one. -/
theorem Collection.toConsole_escapeFree_iff_redCode :
    (∃ brief, (failedRun "\x1b[31meval" "Found eval").toConsole .standard false false = .ok brief ∧
      EscapeFree brief) ∧
    ∃ full, (failedRun "\x1b[31meval" "Found eval").toConsole .standard false true = .ok full ∧
      ¬ EscapeFree full := by
  have htyped := failedRun_wellTyped "\x1b[31meval" "Found eval"
  obtain ⟨total, htotal⟩ := exists_totalExecutionTime_failedRun "\x1b[31meval" "Found eval"
  have hreport := Collection.toConsole_escapeFree_iff Printer.standard_isFaithful htyped htotal
  obtain ⟨hwritten, hplain⟩ := hreport false
  obtain ⟨hwrittenFull, hcoloured⟩ := hreport true
  obtain ⟨brief, hbrief⟩ := hwritten.mpr (failedRun_isShort false _ _)
  obtain ⟨full, hfull⟩ := hwrittenFull.mpr (failedRun_isShort true _ _)
  have hshown := failedRun_shownPlain_iff
  refine ⟨⟨brief, hbrief, ?_⟩, full, hfull, fun h => ?_⟩
  · exact (hplain brief hbrief).mpr ((hshown false _ _).mpr ⟨by decide, nofun⟩)
  · exact absurd (((hshown true _ _).mp ((hcoloured full hfull).mp h)).2 rfl) (by decide)

/-- A message that changes the ink does so in brief and in full reports, with colours turned off. -/
theorem Collection.not_escapeFree_redMessage :
    (∃ brief, (failedRun "eval($job);" "\x1b[31meval").toConsole .standard false false = .ok brief ∧
      ¬ EscapeFree brief) ∧
    ∃ full, (failedRun "eval($job);" "\x1b[31meval").toConsole .standard false true = .ok full ∧
      ¬ EscapeFree full := by
  obtain ⟨total, htotal⟩ := exists_totalExecutionTime_failedRun "eval($job);" "\x1b[31meval"
  have hcoloured (verbose : Bool) :
      ∃ text, (failedRun "eval($job);" "\x1b[31meval").toConsole .standard false verbose = .ok text ∧
        ¬ EscapeFree text := by
    obtain ⟨text, htext⟩ := (Collection.exists_toConsole_iff (failedRun_wellTyped _ _) htotal
      .standard false verbose).mpr (failedRun_isShort verbose _ _)
    refine ⟨text, htext, fun h => ?_⟩
    have hshown := (failedRun_shownPlain_iff verbose _ _).mp
      ((Collection.escapeFree_iff Printer.standard_isFaithful htext).mp h)
    exact absurd hshown.1 (by decide)
  exact ⟨hcoloured false, hcoloured true⟩

end Report

end PhpAudit
