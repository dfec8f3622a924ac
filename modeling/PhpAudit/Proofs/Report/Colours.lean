import PhpAudit.Proofs.Report.Escapes

/-!
# Colours change nothing else

`eraseInks` takes every change of ink out of a text, wherever it stands and whatever its number is.
A coloured report without its changes of ink is the plain report, character by character
(`Collection.toConsole_erased`), as long as the texts in it have no escape character: such a text
could hold something that looks like a change of ink. Values that are no texts are spelled out, so
nothing has to be asked of them.
-/

namespace PhpAudit

open Data Number

namespace Report

/-! ## Changes of ink -/

/-- What follows a change of ink, if a text starts with one: the escape character and an opening
bracket, a number, and the letter m. -/
def afterInk? : List Char → Option (List Char)
  | c :: '[' :: rest =>
    if c = escapeChar then
      match rest.span Char.isDigit with
      | (_ :: _, 'm' :: after) => some after
      | _ => none
    else none
  | _ => none

/-- Taking an ink sequence off shortens the text. -/
theorem length_afterInk? {text after : List Char} (h : afterInk? text = some after) :
    after.length < text.length := by
  unfold afterInk? at h
  split at h
  next c rest =>
    split at h
    next =>
      split at h
      next digit digits _ hspan =>
        cases h
        rw [List.span_eq_takeWhile_dropWhile, Prod.mk.injEq] at hspan
        have hrest : rest.takeWhile Char.isDigit ++ rest.dropWhile Char.isDigit = rest :=
          List.takeWhile_append_dropWhile
        have hlength := congrArg List.length hrest
        rw [hspan.1, hspan.2] at hlength
        simp only [List.length_append, List.length_cons] at hlength ⊢
        omega
      next => cases h
    next => cases h
  next => cases h

/-- A text without its changes of ink. -/
def eraseInks : List Char → List Char
  | [] => []
  | c :: rest =>
    match _h : afterInk? (c :: rest) with
    | some after => eraseInks after
    | none => c :: eraseInks rest
termination_by text => text.length
decreasing_by
  · exact length_afterInk? _h
  · exact Nat.lt_succ_self _

/-- An ink sequence at the front is erased. -/
theorem eraseInks_of_afterInk? {text after : List Char} (h : afterInk? text = some after) :
    eraseInks text = eraseInks after := by
  cases text with
  | nil => cases h
  | cons c rest =>
    rw [eraseInks]
    split
    next found hfound =>
      rw [h, Option.some.injEq] at hfound
      rw [hfound]
    next hnone =>
      rw [h] at hnone
      cases hnone

/-- What has no escape character stays. -/
theorem eraseInks_append {text : List Char} (h : escapeChar ∉ text) (rest : List Char) :
    eraseInks (text ++ rest) = text ++ eraseInks rest := by
  induction text with
  | nil => rfl
  | cons c text ih =>
    rw [List.mem_cons, not_or] at h
    have hnone : afterInk? (c :: (text ++ rest)) = none := by
      unfold afterInk?
      split
      next d more heq =>
        rw [if_neg]
        rw [← (List.cons.inj heq).1]
        exact Ne.symm h.1
      next => rfl
    rw [List.cons_append, eraseInks]
    split
    next found hfound =>
      rw [hnone] at hfound
      cases hfound
    next => rw [ih h.2, List.cons_append]

/-- A text loses its changes of ink and becomes another one, whatever stands behind it. -/
def Erases (coloured plain : List Char) : Prop :=
  ∀ rest, eraseInks (coloured ++ rest) = plain ++ eraseInks rest

/-- A text without escapes is left as it is. -/
theorem erases_of_notMem {text : List Char} (h : escapeChar ∉ text) : Erases text text :=
  eraseInks_append h

/-- Fronts and backs may be erased apart. -/
theorem Erases.append {front plainFront back plainBack : List Char}
    (hfront : Erases front plainFront) (hback : Erases back plainBack) :
    Erases (front ++ back) (plainFront ++ plainBack) := by
  intro rest
  rw [List.append_assoc, hfront, hback, List.append_assoc]

/-- What is written part by part is erased part by part. -/
theorem Erases.flatMap {α : Type} {coloured plain : α → List Char} {parts : List α}
    (h : ∀ part ∈ parts, Erases (coloured part) (plain part)) :
    Erases (parts.flatMap coloured) (parts.flatMap plain) := by
  induction parts with
  | nil => exact fun _ => rfl
  | cons part parts ih =>
    obtain ⟨hpart, hparts⟩ := List.forall_mem_cons.mp h
    rw [List.flatMap_cons, List.flatMap_cons]
    exact hpart.append (ih hparts)

/-! ## Pieces and lines -/

/-- A coloured piece without its changes of ink is the plain piece. -/
theorem erases_inked (ink : Option Ink) {chars : List Char} (h : escapeChar ∉ chars) :
    Erases (inked true ink chars) (inked false ink chars) := by
  rw [inked_false]
  cases ink with
  | none => exact erases_of_notMem h
  | some ink =>
    have hstart : Erases (['\x1b', '['] ++ inkNumber ink ++ ['m']) [] := by
      intro rest
      apply eraseInks_of_afterInk?
      rcases ink with _ | (_ | _ | _ | _ | _ | _) <;> rfl
    have hend : Erases ['\x1b', '[', '0', 'm'] [] := fun _ => eraseInks_of_afterInk? rfl
    rw [inked]
    split
    · have herased := (hstart.append (erases_of_notMem h)).append hend
      rwa [List.nil_append, List.append_nil] at herased
    · exact erases_of_notMem h

/-- Coloured lines without their changes of ink are the plain lines. -/
theorem erases_lines (ink : Option Ink) {lines : List (List (List Char))}
    (h : ∀ pieces ∈ lines, ∀ chars ∈ pieces, escapeChar ∉ chars) :
    Erases ((inkedLines true ink lines).flatMap (· ++ ['\n']))
      ((inkedLines false ink lines).flatMap (· ++ ['\n'])) := by
  rw [inkedLines, inkedLines, List.flatMap_map, List.flatMap_map]
  refine Erases.flatMap fun pieces hpieces => ?_
  exact (Erases.flatMap fun chars hchars => erases_inked ink (h pieces hpieces chars hchars)).append
    (erases_of_notMem (by decide))

/-! ## Texts without escape characters -/

/-- A place whose texts have no escape characters. -/
structure Location.EscapeFree (location : Location) : Prop where
  file : location.file.EscapeFree
  line : location.line.EscapeFree
  column : location.column.EscapeFree

/-- An issue whose texts have no escape characters, as far as a report shows them. -/
structure Issue.EscapeFree (issue : Issue) : Prop where
  message : issue.message.EscapeFree
  location : ∀ location ∈ issue.location, location.EscapeFree
  recommendation : issue.recommendation.EscapeFree
  code : issue.code.EscapeFree

/-- A result whose texts have no escape characters, as far as a report shows them. -/
structure Result.EscapeFree (result : Result) : Prop where
  analyzerId : result.analyzerId.EscapeFree
  message : result.message.EscapeFree
  issues : ∀ issue ∈ result.issues, issue.EscapeFree

/-- A place without escapes is spelled without them. -/
theorem Location.EscapeFree.text {location : Location} (h : location.EscapeFree) {place : String}
    (hplace : location.text = .ok place) : Report.EscapeFree place := by
  have hcolon : Report.EscapeFree ":" := by decide
  have hshown {value : Value} {text : String} (hfree : value.EscapeFree)
      (h : value.shown = .ok text) : Report.EscapeFree text :=
    (Value.escapeFree_shown_iff h).mpr hfree
  cases Location.text_eq_ok_iff.mp hplace with
  | file => exact h.file _ rfl
  | line _ hfile hline =>
    exact ((hshown h.file hfile).append hcolon).append (hshown h.line hline)
  | column _ _ hfile hline hposition =>
    exact ((((hshown h.file hfile).append hcolon).append (hshown h.line hline)).append
      hcolon).append (hshown h.column hposition)

/-- What has no escape character at all shows none. -/
theorem Result.EscapeFree.shownPlain {result : Result} (h : result.EscapeFree) (verbose : Bool) :
    result.ShownPlain verbose where
  analyzerId := h.analyzerId
  message := h.message
  issues issue hissue :=
    have hplain := h.issues issue hissue
    ⟨hplain.message, fun location hlocation _ => (hplain.location location hlocation).text,
      hplain.recommendation, fun _ => hplain.code⟩

/-! ## Reports -/

/-- A coloured outline of items without escape characters becomes the plain one. -/
theorem Outline.erases_written {printer : Printer} (hprinter : printer.IsFaithful)
    {outline : Outline} (h : AreEscapeFree outline.items) :
    Erases (outline.written printer true).toList (outline.written printer false).toList := by
  simp only [Outline.written, String.toList_ofList, Outline.lines, List.flatMap_append,
    List.flatMap_assoc]
  refine (erases_lines _ (notMem_titlePieces hprinter)).append (Erases.flatMap fun item hitem => ?_)
  exact erases_lines item.ink (notMem_pieces hprinter (h item hitem))

namespace Collection

variable {collection : Collection} {verbose : Bool}

/-- **Colours change nothing else.** A coloured report without its changes of ink is the plain
report, and there is a coloured report just when there is a plain one, whichever faithful printer
writes them. -/
theorem toConsole_erased {printer : Printer} (hprinter : printer.IsFaithful)
    (h : ∀ result ∈ collection.results, result.EscapeFree) :
    (fun text => String.ofList (eraseInks text.toList)) <$>
        collection.toConsole printer true verbose =
      collection.toConsole printer false verbose := by
  cases hreport : collection.toConsole printer false verbose with
  | ok plain =>
    obtain ⟨outline, houtline, rfl⟩ := toConsole_eq_ok_iff.mp hreport
    have hplain : AreEscapeFree outline.items := (areEscapeFree_items_iff houtline).mpr
      fun result hresult => (h result (mem_of_mem_listed hresult)).shownPlain verbose
    have herased := Outline.erases_written hprinter hplain []
    rw [List.append_nil, eraseInks, List.append_nil] at herased
    rw [toConsole_eq_ok_iff.mpr ⟨outline, houtline, rfl⟩]
    change Except.ok (String.ofList (eraseInks (outline.written printer true).toList)) = _
    rw [herased, String.ofList_toList]
  -- colours do not matter to whether a report can be laid out
  | error fault =>
    rw [toConsole] at hreport ⊢
    cases hlines : reportLines printer verbose collection with
    | ok lines =>
      rw [hlines] at hreport
      cases hreport
    | error other =>
      rw [hlines] at hreport
      cases hreport
      rfl

end Collection

theorem escapeFree_failureWithMetadata : failureWithMetadata.EscapeFree := by
  have htext {s : String} (h : EscapeFree s) : (Value.text s).EscapeFree := by
    intro t ht
    cases ht
    exact h
  refine ⟨htext (by decide), htext (by decide), ?_⟩
  intro issue hissue
  rw [List.mem_singleton.mp hissue]
  refine ⟨htext (by decide), ?_, htext (by decide), htext (by decide)⟩
  intro location hlocation
  cases hlocation
  exact ⟨htext (by decide), nofun, nofun⟩

/-- Such a failure, whose message has a tab and ends in a line feed, is reported in full with
colours and without. -/
theorem Collection.toConsole_erased_failure :
    ∃ coloured plain,
      (⟨[failureWithMetadata]⟩ : Collection).toConsole .standard true true = .ok coloured ∧
      (⟨[failureWithMetadata]⟩ : Collection).toConsole .standard false true = .ok plain ∧
      String.ofList (eraseInks coloured.toList) = plain := by
  have hmem {result : Result} (h : result ∈ [failureWithMetadata]) :
      result = failureWithMetadata := List.mem_singleton.mp h
  have hsome : ((⟨[failureWithMetadata]⟩ : Collection).toConsole .standard true
      true).toOption.isSome = true := by decide +kernel
  obtain ⟨coloured, hcoloured⟩ := Option.isSome_iff_exists.mp hsome
  have herased : _ <$> (⟨[failureWithMetadata]⟩ : Collection).toConsole .standard true true =
      (⟨[failureWithMetadata]⟩ : Collection).toConsole .standard false true :=
    Collection.toConsole_erased Printer.standard_isFaithful
      fun result h => hmem h ▸ escapeFree_failureWithMetadata
  replace hcoloured := eq_ok_of_toOption hcoloured
  rw [hcoloured] at herased
  exact ⟨coloured, _, hcoloured, herased.symm, rfl⟩

end Report

end PhpAudit
