import PhpAudit.Proofs.Snippet.Window
import PhpAudit.Proofs.Text.ByteLines

/-!
# What snippets show of a file

The lines of a snippet are those of the file's bytes between line feeds, each decoded on its own and
then cut and stripped, whatever the bytes are. A number in a snippet therefore means the same line
to everything that counts line feeds in the bytes.
-/

namespace PhpAudit.Snippet

open PhpAudit.Data PhpAudit.Files PhpAudit.Text.Utf8

/-! ## Lines of a content -/

/-- What a line of bytes is shown as: the text that its bytes read as, cut to 250 characters and
then stripped at its end. -/
def ShownAs (bytes : List UInt8) (shown : Value) : Prop :=
  ∃ text, Replaces bytes text ∧ shown = .text (String.ofList (Text.stripEnd (text.take 250)))

/-- Numbered lines show a content: each number is that of a line between two line feeds, counted
from one, and its text is what the bytes of that line are shown as. -/
def Show (content : List UInt8) (lines : NumberedLines) : Prop :=
  ∀ n shown, (n, shown) ∈ lines → ∃ i : Nat, n = 1 + i ∧
    ∃ bytes, (content.splitOn 0x0A)[i]? = some bytes ∧ ShownAs bytes shown

theorem length_segments_decode (content : List UInt8) :
    (Text.segments (decode content)).length = (content.splitOn 0x0A).length := by
  rw [segments_decode, List.length_map]

/-- Numbered lines show a content if they show pieces of the decoded content in their places. -/
theorem show_of_pieces {content : List UInt8} {lines : NumberedLines}
    (h : ∀ n shown, (n, shown) ∈ lines → ∃ i : Nat, n = 1 + i ∧
      ∃ piece, (Text.segments (decode content))[i]? = some piece ∧
        shown = .text (String.ofList (shownLine piece))) : Show content lines := by
  intro n shown hmem
  obtain ⟨i, hn, piece, hpiece, hshown⟩ := h n shown hmem
  rw [segments_decode, List.getElem?_map, Option.map_eq_some_iff] at hpiece
  obtain ⟨bytes, hbytes, rfl⟩ := hpiece
  exact ⟨i, hn, bytes, hbytes, decode bytes, replaces_decode bytes, hshown⟩

/-- A line that is shown is shown as the bytes between its two line feeds. -/
theorem Show.mem {content : List UInt8} {lines : NumberedLines} (h : Show content lines) {i : Nat}
    (hmem : (1 + i : Int) ∈ lines.map Prod.fst) {bytes : List UInt8}
    (hbytes : (content.splitOn 0x0A)[i]? = some bytes) :
    ∃ shown, ShownAs bytes shown ∧ ((1 + i : Int), shown) ∈ lines := by
  obtain ⟨⟨n, shown⟩, hentry, hn⟩ := List.mem_map.mp hmem
  obtain ⟨j, hj, bytes', hbytes', hshown⟩ := h n shown hentry
  have hij : i = j := by
    simp only at hn
    omega
  rw [← hij, hbytes, Option.some.injEq] at hbytes'
  exact ⟨shown, hbytes' ▸ hshown, hn ▸ hentry⟩

end PhpAudit.Snippet
