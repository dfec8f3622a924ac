import PhpAudit.Files.Tree
import PhpAudit.Grammar.Program
import PhpAudit.Syntax.Reading
import PhpAudit.Text.Blank

/-!
# Sources

The syntax of a source, from its bytes. A source that is blank or malformed has no nodes.
-/

namespace PhpAudit.Syntax

/-- Whether a source holds nothing but ASCII blanks. -/
def isBlankSource (source : List UInt8) : Bool := source.all Text.isAsciiBlankByte

/-- The top-level nodes of a source, given how to find its concrete tree. -/
def forestBy (parse? : List UInt8 → Option Grammar.Tree) (source : List UInt8) : Forest :=
  if isBlankSource source then []
  else match parse? source with
    | some root => forestOf source root
    | none => []

/-- The top-level nodes of a source. -/
def forestOfSource (source : List UInt8) : Forest := forestBy Grammar.parse? source

/-- The top-level nodes of a file. A file that cannot be read has none. -/
def forestOfFile (files : Files.Tree) (file : String) : Forest :=
  forestOfSource ((files.read? (Files.Path.ofString file)).getD [])

end PhpAudit.Syntax
