import PhpAudit.Proofs.Syntax.Reading
import PhpAudit.Proofs.Text.Ascii

/-!
# What a quoted literal holds

A literal is decoded with its delimiters, which are then taken off the text. `value_of_quoted` says
that this loses nothing and adds nothing: the value of a literal is what the bytes between its two
quotation marks read as on their own. The bytes need not be well-formed. A sequence that is broken
off before the closing mark does not swallow it, since the mark is a low byte, and the letter in
front is looked for where the literal starts, so that no letter of the content is taken for it.
-/

namespace PhpAudit.Syntax

open PhpAudit.Grammar (Tree)
open PhpAudit.Text.Utf8 (Replaces)

/-! ## Delimiters -/

/-- The letters that may stand in front of a literal: none, a small or a capital b. -/
def byteMarks : List (List UInt8) := [[], [0x62], [0x42]]

/-- The quotation marks: the double quote, the single quote and the backtick. -/
def quotationMarks : List UInt8 := [0x22, 0x27, 0x60]

/-- A quotation mark is a low byte, and is not taken for the letter in front of one. -/
theorem quotationMark_low : ∀ quote ∈ quotationMarks,
    quote < 0x80 ∧ Char.ofNat quote.toNat ≠ 'b' ∧ Char.ofNat quote.toNat ≠ 'B' := by
  decide +kernel

/-- The letter in front is taken off if there is one, and nothing else is. -/
theorem withoutByteMark_quoted {mark : List UInt8} (hmark : mark ∈ byteMarks) {quote : Char}
    (hsmall : quote ≠ 'b') (hcapital : quote ≠ 'B') (rest : List Char) :
    withoutByteMark (Text.Utf8.decode mark ++ quote :: rest) = quote :: rest := by
  simp only [byteMarks, List.mem_cons, List.not_mem_nil, or_false] at hmark
  rcases hmark with rfl | rfl | rfl
  · change withoutByteMark (quote :: rest) = quote :: rest
    simp [withoutByteMark, hsmall, hcapital]
  · rfl
  · rfl

/-- Of a text in quotation marks, the marks are taken off, and nothing else is. -/
theorem withoutEnds_quoted (first last : Char) (content : List Char) :
    withoutEnds (first :: (content ++ [last])) = content := by
  have hlength : ¬ (first :: (content ++ [last])).length < 2 := by
    rw [List.length_cons, List.length_append, List.length_singleton]
    omega
  rw [withoutEnds, if_neg hlength, List.drop_one, List.tail_cons, List.dropLast_concat]

/-- A decoded literal without its delimiters is the content, decoded on its own. -/
theorem quotedContent_decode {mark : List UInt8} (hmark : mark ∈ byteMarks) {quote : UInt8}
    (hquote : quote ∈ quotationMarks) (content : List UInt8) :
    quotedContent (Text.Utf8.decode (mark ++ quote :: (content ++ [quote]))) =
      Text.Utf8.decode content := by
  obtain ⟨hlow, hsmall, hcapital⟩ := quotationMark_low quote hquote
  rw [quotedContent, Text.Utf8.decode_append_ascii mark hlow,
    withoutByteMark_quoted hmark hsmall hcapital, Text.Utf8.decode_append_ascii content hlow]
  exact withoutEnds_quoted _ _ _

/-! ## Values -/

/-- The value of a literal in quotation marks is its content. -/
theorem literalValue_quoted {source : List UInt8} {tree : Tree}
    (htype : tree.type ∈ ["string", "encapsed_string"]) :
    literalValue source tree = String.ofList (quotedContent (textOf source tree)) := by
  have hnot : ∀ type ∈ ["string", "encapsed_string"],
      (type == "heredoc" || type == "nowdoc") = false := by decide
  rw [literalValue, hnot _ htype]
  rfl

/-- **The value of a quoted literal is what stands between its quotation marks.** The node of the
literal has a value, which is a text that the bytes of the content read as; by `replaces_iff` there
is no other. -/
theorem value_of_quoted (source : List UInt8) (tree : Tree)
    (htype : tree.type ∈ ["string", "encapsed_string"]) (mark : List UInt8)
    (hmark : mark ∈ byteMarks) (quote : UInt8) (hquote : quote ∈ quotationMarks)
    (content : List UInt8)
    (hslice : slice source tree.span.startByte tree.span.endByte =
      mark ++ quote :: (content ++ [quote])) :
    ∃ node, readWithStack source tree = some node ∧
      ∃ text, Replaces content text ∧ node.value = some (String.ofList text) := by
  have hliteral : ∀ type ∈ ["string", "encapsed_string"], stringTypes.contains type = true := by
    decide
  refine ⟨read source tree, readWithStack_eq_read source tree, Text.Utf8.decode content,
    Text.Utf8.replaces_decode content, ?_⟩
  calc (read source tree).value = some (literalValue source tree) := by
        rw [read_eq]
        exact if_pos (hliteral _ htype)
    _ = some (String.ofList (Text.Utf8.decode content)) := by
        rw [literalValue_quoted htype, textOf, hslice, quotedContent_decode hmark hquote]

/-- A literal with a letter in front. Its content starts with the last byte of a sequence, goes on
with a `b` and a quotation mark, and breaks off inside another sequence. -/
def brokenLiteral : List UInt8 := [0x62, 0x22, 0xA9, 0x62, 0x22, 0xE2, 0x82, 0x22]

def brokenLiteralTree : Tree := .node "encapsed_string" true none ⟨0, 8, ⟨0, 0⟩, ⟨0, 8⟩⟩ []

/-- What is broken off at either end of the content is replaced there; the `b` and the quotation
mark inside stay. -/
theorem value_of_quoted_brokenLiteral :
    slice brokenLiteral 0 8 = [0x62] ++ 0x22 :: ([0xA9, 0x62, 0x22, 0xE2, 0x82] ++ [0x22]) ∧
      ∃ node, readWithStack brokenLiteral brokenLiteralTree = some node ∧
        node.value = some "\uFFFDb\"\uFFFD" := by
  have hslice : slice brokenLiteral 0 8 =
      [0x62] ++ 0x22 :: ([0xA9, 0x62, 0x22, 0xE2, 0x82] ++ [0x22]) := by decide
  obtain ⟨node, hnode, text, htext, hvalue⟩ := value_of_quoted brokenLiteral brokenLiteralTree
    (by decide) [0x62] (by decide) 0x22 (by decide) [0xA9, 0x62, 0x22, 0xE2, 0x82] hslice
  refine ⟨hslice, node, hnode, ?_⟩
  rw [hvalue, Text.Utf8.replaces_iff.mp htext]
  decide

end PhpAudit.Syntax
