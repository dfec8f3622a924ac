import Mathlib.Data.List.Infix
import PhpAudit.Files.Declared
import PhpAudit.Proofs.Text.Spans

/-!
# Comments at the end of a line

A comment starts at the first mark, a number sign or two slashes, that stands in no literal. `Cut` is
what a line falls into: characters and literals, which are its code, and the comment behind them, if
there is one. It is read off the line from left to right, and there is one reading at most
(`Cut.unique`).

The search for a comment does not know of literals, and takes off what starts at the first mark of
all. That is the comment, and nothing of the code, exactly if no literal has a mark in it
(`withoutComment_eq_code_iff`). Otherwise the rest of the literal and the code behind it are lost.
-/

namespace PhpAudit.Files

/-! ## Marks -/

/-- What a comment starts with. -/
def marks : List (List Char) := [['#'], ['/', '/']]

def StartsComment (text : List Char) : Prop := ∃ mark ∈ marks, mark <+: text

/-- A mark is somewhere in a text. -/
def HoldsMark (text : List Char) : Prop := ∃ mark ∈ marks, mark <:+: text

instance : DecidablePred StartsComment := fun text =>
  inferInstanceAs (Decidable (∃ mark ∈ marks, mark <+: text))

instance : DecidablePred HoldsMark := fun text =>
  inferInstanceAs (Decidable (∃ mark ∈ marks, mark <:+: text))

theorem not_startsComment_nil : ¬ StartsComment [] := by decide

theorem not_holdsMark_nil : ¬ HoldsMark [] := by decide

/-- A mark occurs in a text at its start or behind its first character. -/
theorem holdsMark_cons {c : Char} {text : List Char} :
    HoldsMark (c :: text) ↔ StartsComment (c :: text) ∨ HoldsMark text := by
  simp only [HoldsMark, StartsComment, List.infix_cons_iff, and_or_left, exists_or]

/-- A mark at the start of a front is at the start of the whole text. -/
theorem StartsComment.mono {front text : List Char} (h : StartsComment front)
    (hfront : front <+: text) : StartsComment text := by
  obtain ⟨mark, hmark, hword⟩ := h
  exact ⟨mark, hmark, hword.trans hfront⟩

/-! ## Texts up to a mark -/

/-- Nothing is kept of a text that starts with a mark. -/
theorem beforeComment_of_startsComment {text : List Char} (h : StartsComment text) :
    beforeComment text = [] := by
  obtain ⟨mark, hmark, rest, rfl⟩ := h
  simp only [marks, List.mem_cons, List.not_mem_nil, or_false] at hmark
  rcases hmark with rfl | rfl
  · rfl
  · rfl

/-- A character that starts no mark is kept. -/
theorem beforeComment_cons {c : Char} {text : List Char} (h : ¬ StartsComment (c :: text)) :
    beforeComment (c :: text) = c :: beforeComment text := by
  refine beforeComment.eq_4 c text (fun hc => h ?_) (fun rest hc hrest => h ?_)
  · rw [hc]
    exact ⟨['#'], by decide, text, rfl⟩
  · rw [hc, hrest]
    exact ⟨['/', '/'], by decide, rest, rfl⟩

/-- What is kept is the front of the text. -/
theorem beforeComment_prefix (text : List Char) : beforeComment text <+: text := by
  induction text with
  | nil => exact List.prefix_refl _
  | cons c text ih =>
    by_cases h : StartsComment (c :: text)
    · rw [beforeComment_of_startsComment h]
      exact List.nil_prefix
    · rw [beforeComment_cons h]
      exact List.cons_prefix_cons.mpr ⟨rfl, ih⟩

/-- Nothing is taken off a text without a mark, and something off every other. -/
theorem beforeComment_eq_self_iff {text : List Char} :
    beforeComment text = text ↔ ¬ HoldsMark text := by
  induction text with
  | nil => exact iff_of_true rfl not_holdsMark_nil
  | cons c text ih =>
    by_cases h : StartsComment (c :: text)
    · rw [beforeComment_of_startsComment h, holdsMark_cons]
      exact iff_of_false (List.cons_ne_nil c text).symm (not_not_intro (.inl h))
    · rw [beforeComment_cons h, List.cons_inj_right, ih, holdsMark_cons, or_iff_right h]

/-! ## Literals -/

/-- What a literal stands between. -/
def quotes : List Char := ['\x27', '"']

variable {quote : Char}

/-- A quote is no backslash and occurs in no mark. -/
theorem notMem_of_mem_quotes :
    ∀ quote ∈ quotes, quote ≠ '\\' ∧ ∀ mark ∈ marks, quote ∉ mark := by
  simp [quotes, marks]

/-- A word does not reach over a character that is not in it. -/
theorem prefix_append_cons_iff {α : Type} {word front back : List α} {sep : α} (h : sep ∉ word) :
    word <+: front ++ sep :: back ↔ word <+: front := by
  induction front generalizing word with
  | nil =>
    cases word with
    | nil => exact iff_of_true List.nil_prefix List.nil_prefix
    | cons c word =>
      refine iff_of_false (fun hword => ?_) (fun hword => ?_)
      · obtain ⟨rfl, -⟩ := List.cons_prefix_cons.mp hword
        exact h List.mem_cons_self
      · exact List.cons_ne_nil c word (List.prefix_nil.mp hword)
  | cons d front ih =>
    cases word with
    | nil => exact iff_of_true List.nil_prefix List.nil_prefix
    | cons c word =>
      rw [List.cons_append, List.cons_prefix_cons, List.cons_prefix_cons,
        ih (fun hmem => h (List.mem_cons_of_mem c hmem))]

/-- A mark at the start of a text does not reach past a quote. -/
theorem startsComment_append_quote (hquote : quote ∈ quotes) {front back : List Char} :
    StartsComment (front ++ quote :: back) ↔ StartsComment front :=
  exists_congr fun _ => and_congr_right fun hmark =>
    prefix_append_cons_iff ((notMem_of_mem_quotes quote hquote).2 _ hmark)

/-- No mark starts with a quote. -/
theorem not_startsComment_quote_cons (hquote : quote ∈ quotes) (back : List Char) :
    ¬ StartsComment (quote :: back) := by
  rw [← List.nil_append (quote :: back), startsComment_append_quote hquote]
  exact not_startsComment_nil

/-- No mark reaches over a quotation mark. -/
theorem holdsMark_append_quote (hquote : quote ∈ quotes) {front back : List Char} :
    HoldsMark (front ++ quote :: back) ↔ HoldsMark front ∨ HoldsMark back := by
  induction front with
  | nil =>
    rw [List.nil_append, holdsMark_cons, or_iff_right (not_startsComment_quote_cons hquote back),
      or_iff_right not_holdsMark_nil]
  | cons c front ih =>
    rw [List.cons_append, holdsMark_cons, ih, holdsMark_cons, ← List.cons_append,
      startsComment_append_quote hquote, or_assoc]

/-- Behind a quotation mark, the search goes on as if it started there. -/
theorem beforeComment_append_quote (hquote : quote ∈ quotes) (front : List Char)
    {back back' : List Char} (h : beforeComment back = beforeComment back') :
    beforeComment (front ++ quote :: back) = beforeComment (front ++ quote :: back') := by
  induction front with
  | nil =>
    rw [List.nil_append, List.nil_append,
      beforeComment_cons (not_startsComment_quote_cons hquote back),
      beforeComment_cons (not_startsComment_quote_cons hquote back'), h]
  | cons c front ih =>
    have hiff (rest : List Char) :
        StartsComment (c :: (front ++ quote :: rest)) ↔ StartsComment (c :: front) := by
      rw [← List.cons_append, startsComment_append_quote hquote]
    rw [List.cons_append, List.cons_append]
    by_cases hstart : StartsComment (c :: front)
    · rw [beforeComment_of_startsComment ((hiff back).mpr hstart),
        beforeComment_of_startsComment ((hiff back').mpr hstart)]
    · rw [beforeComment_cons (mt (hiff back).mp hstart),
        beforeComment_cons (mt (hiff back').mp hstart), ih]

/-- What can stand in a literal: no quotation mark of its kind, unless a backslash is in front of
it. -/
inductive IsBody (quote : Char) : List Char → Prop where
  | nil : IsBody quote []
  | escaped {c : Char} {body : List Char} (hbody : IsBody quote body) :
      IsBody quote ('\\' :: c :: body)
  | plain {c : Char} {body : List Char} (hquote : c ≠ quote) (hescape : c ≠ '\\')
      (hbody : IsBody quote body) : IsBody quote (c :: body)

/-- A literal ends at one place only. -/
theorem IsBody.eq_of_append {body body' rest rest' : List Char} (hquote : quote ≠ '\\')
    (h : IsBody quote body) (h' : IsBody quote body')
    (heq : body ++ quote :: rest = body' ++ quote :: rest') : body = body' ∧ rest = rest' := by
  induction h generalizing body' with
  | nil =>
    cases h' with
    | nil => exact ⟨rfl, (List.cons.inj heq).2⟩
    | escaped => exact absurd (List.cons.inj heq).1 hquote
    | plain hne => exact absurd (List.cons.inj heq).1.symm hne
  | escaped _ ih =>
    cases h' with
    | nil => exact absurd (List.cons.inj heq).1.symm hquote
    | escaped hbody =>
      obtain ⟨hc, heq⟩ := List.cons.inj (List.cons.inj heq).2
      obtain ⟨rfl, hrest⟩ := ih hbody heq
      exact ⟨by rw [hc], hrest⟩
    | plain _ hne => exact absurd (List.cons.inj heq).1.symm hne
  | plain hne hescape _ ih =>
    cases h' with
    | nil => exact absurd (List.cons.inj heq).1 hne
    | escaped => exact absurd (List.cons.inj heq).1 hescape
    | plain _ _ hbody =>
      obtain ⟨hc, heq⟩ := List.cons.inj heq
      obtain ⟨rfl, hrest⟩ := ih hbody heq
      exact ⟨by rw [hc], hrest⟩

/-! ## Code and comments -/

/-- A piece of code in a line. -/
inductive Piece where
  | plain (c : Char)
  | literal (quote : Char) (body : List Char)

/-- A piece as it is written. -/
def Piece.text : Piece → List Char
  | .plain c => [c]
  | .literal quote body => quote :: (body ++ [quote])

def codeOf (pieces : List Piece) : List Char := pieces.flatMap Piece.text

@[simp] theorem codeOf_plain_cons (c : Char) (pieces : List Piece) :
    codeOf (.plain c :: pieces) = c :: codeOf pieces := rfl

/-- The code of a literal: its quotes and its body. -/
@[simp] theorem codeOf_literal_cons (quote : Char) (body : List Char) (pieces : List Piece) :
    codeOf (.literal quote body :: pieces) = quote :: (body ++ quote :: codeOf pieces) := by
  simp [codeOf, Piece.text]

/-- A line in which every literal is closed, its code in pieces, and the comment behind the code. -/
inductive Cut : List Char → List Piece → List Char → Prop where
  | nil : Cut [] [] []
  | comment {text : List Char} (h : StartsComment text) : Cut text [] text
  | plain {c : Char} {rest : List Char} {pieces : List Piece} {comment : List Char}
      (hc : c ∉ quotes) (hstart : ¬ StartsComment (c :: rest)) (hrest : Cut rest pieces comment) :
      Cut (c :: rest) (.plain c :: pieces) comment
  | literal {quote : Char} {body rest : List Char} {pieces : List Piece} {comment : List Char}
      (hquote : quote ∈ quotes) (hbody : IsBody quote body) (hrest : Cut rest pieces comment) :
      Cut (quote :: (body ++ quote :: rest)) (.literal quote body :: pieces) comment

namespace Cut

variable {line comment : List Char} {pieces : List Piece}

/-- A line is its code and its comment. -/
theorem eq_append (h : Cut line pieces comment) : line = codeOf pieces ++ comment := by
  induction h with
  | nil => rfl
  | comment => rfl
  | plain _ _ _ ih => rw [codeOf_plain_cons, List.cons_append, ← ih]
  | literal _ _ _ ih =>
    rw [codeOf_literal_cons, List.cons_append, List.append_assoc, List.cons_append, ← ih]

/-- A line has one reading at most. -/
theorem unique {pieces' : List Piece} {comment' : List Char} (h : Cut line pieces comment)
    (h' : Cut line pieces' comment') : pieces = pieces' ∧ comment = comment' := by
  induction h generalizing pieces' with
  | nil =>
    cases h' with
    | nil => exact ⟨rfl, rfl⟩
    | comment hstart => exact absurd hstart not_startsComment_nil
  | comment hstart =>
    cases h' with
    | nil => exact ⟨rfl, rfl⟩
    | comment => exact ⟨rfl, rfl⟩
    | plain _ hnot => exact absurd hstart hnot
    | literal hquote => exact absurd hstart (not_startsComment_quote_cons hquote _)
  | plain hc hnot _ ih =>
    cases h' with
    | comment hstart => exact absurd hstart hnot
    | plain _ _ hrest =>
      obtain ⟨rfl, hcomment⟩ := ih hrest
      exact ⟨rfl, hcomment⟩
    | literal hquote => exact absurd hquote hc
  | @literal quote body rest pieces comment hquote hbody _ ih =>
    -- both cuts start with the same quote, and a literal ends at the first one that is not escaped
    generalize hline : quote :: (body ++ quote :: rest) = line at h'
    cases h' with
    | nil => cases hline
    | comment hstart =>
      exact absurd (hline ▸ hstart) (not_startsComment_quote_cons hquote _)
    | plain hc => exact absurd ((List.cons.inj hline).1 ▸ hquote) hc
    | literal _ hbody' hrest =>
      obtain ⟨rfl, heq⟩ := List.cons.inj hline
      obtain ⟨rfl, rfl⟩ := hbody.eq_of_append (notMem_of_mem_quotes _ hquote).1 hbody' heq
      obtain ⟨rfl, hcomment⟩ := ih hrest
      exact ⟨rfl, hcomment⟩

/-- Where no comment starts in the line, none starts in the code alone. -/
theorem not_startsComment_code {c : Char} (h : Cut line pieces comment)
    (hnot : ¬ StartsComment (c :: line)) : ¬ StartsComment (c :: codeOf pieces) := by
  have hcode : codeOf pieces <+: line := ⟨comment, h.eq_append.symm⟩
  exact mt (·.mono (List.cons_prefix_cons.mpr ⟨rfl, hcode⟩)) hnot

/-- The search stops at the comment, if it comes that far. -/
theorem beforeComment_eq (h : Cut line pieces comment) :
    beforeComment line = beforeComment (codeOf pieces) := by
  induction h with
  | nil => rfl
  | comment hstart => exact beforeComment_of_startsComment hstart
  | plain _ hnot hrest ih =>
    rw [codeOf_plain_cons, beforeComment_cons hnot,
      beforeComment_cons (not_startsComment_code hrest hnot), ih]
  | @literal quote body _ _ _ hquote _ _ ih =>
    rw [codeOf_literal_cons]
    exact beforeComment_append_quote hquote (quote :: body) ih

/-- The marks in the code stand in its literals. -/
theorem not_holdsMark_codeOf_iff (h : Cut line pieces comment) :
    ¬ HoldsMark (codeOf pieces) ↔
      ∀ quote body, Piece.literal quote body ∈ pieces → ¬ HoldsMark body := by
  induction h with
  | nil => exact iff_of_true not_holdsMark_nil nofun
  | comment => exact iff_of_true not_holdsMark_nil nofun
  | @plain c rest pieces _ _ hnot hrest ih =>
    have hnot' := not_startsComment_code hrest hnot
    rw [codeOf_plain_cons, holdsMark_cons, or_iff_right hnot', ih]
    simp only [List.mem_cons, reduceCtorEq, false_or]
  | @literal quote body rest pieces _ hquote _ _ ih =>
    have hstart := not_startsComment_quote_cons hquote body
    rw [codeOf_literal_cons, ← List.cons_append, holdsMark_append_quote hquote, holdsMark_cons,
      or_iff_right hstart, not_or, ih]
    simp only [List.mem_cons, or_imp, forall_and, Piece.literal.injEq, and_imp,
      forall_eq_apply_imp_iff, forall_eq]

end Cut

/-! ## Lines -/

/-- What can stand at the end of a line. -/
def endings : List (List Char) := [[], ['\n']]

section

variable {line ending : List Char} (hline : '\n' ∉ line) (hending : ending ∈ endings)
include hline hending

/-- A line with its ending is the last line of itself. -/
theorem lastLine_append : lastLine (line ++ ending) = ([], line ++ ending) := by
  induction line with
  | nil =>
    simp only [endings, List.mem_cons, List.not_mem_nil, or_false] at hending
    rcases hending with rfl | rfl
    · rfl
    · rfl
  | cons c line ih =>
    rw [List.mem_cons, not_or] at hline
    have hc : (decide (c = '\n') && line ++ ending != []) = false := by
      rw [decide_eq_false (Ne.symm hline.1), Bool.false_and]
    rw [List.cons_append, lastLine, ih hline.2]
    simp only [hc, Bool.false_eq_true, if_false, if_true]

/-- A line is separated from its ending at the first line feed. -/
theorem span_append_ending : (line ++ ending).span (· != '\n') = (line, ending) := by
  simp only [endings, List.mem_cons, List.not_mem_nil, or_false] at hending
  rcases hending with rfl | rfl
  · rw [List.append_nil, Text.span_of_notMem hline]
  · exact Text.span_append_sep hline []

/-- What ends a line stays. -/
theorem withoutComment_append : withoutComment (line ++ ending) = beforeComment line ++ ending := by
  rw [withoutComment, lastLine_append hline hending]
  simp only [span_append_ending hline hending, List.nil_append]

end

/-- **Comments are taken off, and code with them exactly if a literal holds a mark.** A line in which
every literal is closed is its code and the comment behind it, in one way only. Of such a line, the
end and the front of the code are left, and nothing of the comment. All of the code is left if no
literal has a mark in it, and only then. -/
theorem withoutComment_eq_code_iff {line ending comment : List Char} {pieces : List Piece}
    (hline : '\n' ∉ line) (hending : ending ∈ endings) (hcut : Cut line pieces comment) :
    (line = codeOf pieces ++ comment ∧
      ∀ pieces' comment', Cut line pieces' comment' → pieces' = pieces ∧ comment' = comment) ∧
    (∃ kept, kept <+: codeOf pieces ∧ withoutComment (line ++ ending) = kept ++ ending) ∧
    (withoutComment (line ++ ending) = codeOf pieces ++ ending ↔
      ∀ quote body, Piece.literal quote body ∈ pieces → ¬ HoldsMark body) := by
  rw [withoutComment_append hline hending]
  refine ⟨⟨hcut.eq_append, fun _ _ hcut' => hcut'.unique hcut⟩, ?_, ?_⟩
  · rw [hcut.beforeComment_eq]
    exact ⟨_, beforeComment_prefix _, rfl⟩
  · rw [hcut.beforeComment_eq, List.append_cancel_right_eq, beforeComment_eq_self_iff,
      hcut.not_holdsMark_codeOf_iff]

/-- A call with a literal, and a comment with a quotation mark of its own. -/
def commentedCall : List Char := "f('a\\'b'); # it's".toList

def commentedPieces : List Piece :=
  [.plain 'f', .plain '(', .literal '\x27' ['a', '\\', '\x27', 'b'], .plain ')', .plain ';',
    .plain ' ']

/-- The line is cut in front of its comment, behind both literals. -/
theorem cut_commentedCall : Cut commentedCall commentedPieces "# it's".toList :=
  .plain (by decide) (by decide) <| .plain (by decide) (by decide) <|
    .literal (by decide)
      (.plain (by decide) (by decide) <| .escaped <| .plain (by decide) (by decide) .nil) <|
    .plain (by decide) (by decide) <| .plain (by decide) (by decide) <|
    .plain (by decide) (by decide) <| .comment (by decide)

/-- The comment is taken off, and the call stays as it is. -/
theorem withoutComment_eq_code_commentedCall :
    '\n' ∉ commentedCall ∧ ['\n'] ∈ endings ∧
      Cut commentedCall commentedPieces "# it's".toList ∧
      withoutComment (commentedCall ++ ['\n']) = "f('a\\'b'); \n".toList := by
  have hline : '\n' ∉ commentedCall := by decide
  have hending : ['\n'] ∈ endings := by decide
  obtain ⟨-, -, hiff⟩ := withoutComment_eq_code_iff hline hending cut_commentedCall
  refine ⟨hline, hending, cut_commentedCall, (hiff.mpr ?_).trans rfl⟩
  intro quote body hmem
  simp only [commentedPieces, List.mem_cons, reduceCtorEq, Piece.literal.injEq, List.not_mem_nil,
    or_false, false_or] at hmem
  rw [hmem.2]
  decide

/-- A call with an address for its argument. -/
def addressCall : List Char := "get(\"http://a\");".toList

def addressPieces : List Piece :=
  [.plain 'g', .plain 'e', .plain 't', .plain '(', .literal '"' "http://a".toList, .plain ')',
    .plain ';']

/-- The call has no comment. Without its comment it is cut in two. -/
theorem withoutComment_ne_code_addressCall :
    Cut addressCall addressPieces [] ∧ codeOf addressPieces = addressCall ∧
      withoutComment addressCall = "get(\"http:".toList ∧
      withoutComment addressCall ≠ codeOf addressPieces := by
  refine ⟨?_, by decide, by decide, by decide⟩
  have hbody : IsBody '"' "http://a".toList :=
    .plain (by decide) (by decide) <| .plain (by decide) (by decide) <|
      .plain (by decide) (by decide) <| .plain (by decide) (by decide) <|
      .plain (by decide) (by decide) <| .plain (by decide) (by decide) <|
      .plain (by decide) (by decide) <| .plain (by decide) (by decide) .nil
  exact .plain (by decide) (by decide) <| .plain (by decide) (by decide) <|
    .plain (by decide) (by decide) <| .plain (by decide) (by decide) <|
    .literal (by decide) hbody <| .plain (by decide) (by decide) <|
    .plain (by decide) (by decide) .nil

end PhpAudit.Files
