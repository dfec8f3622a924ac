import PhpAudit.Audit.Analyzer
import PhpAudit.Audit.Calls
import PhpAudit.Audit.DangerousCalls
import PhpAudit.Audit.Paths
import PhpAudit.Audit.RawQueries
import PhpAudit.Audit.Session
import PhpAudit.Data.Fault
import PhpAudit.Data.Reading
import PhpAudit.Data.Spelling
import PhpAudit.Data.Value
import PhpAudit.Files.Declared
import PhpAudit.Files.Path
import PhpAudit.Files.Text
import PhpAudit.Files.Tree
import PhpAudit.Grammar.Declaration
import PhpAudit.Grammar.Expression
import PhpAudit.Grammar.Literal
import PhpAudit.Grammar.Naming
import PhpAudit.Grammar.Program
import PhpAudit.Grammar.Scan
import PhpAudit.Grammar.Source
import PhpAudit.Grammar.Statement
import PhpAudit.Grammar.Symbol
import PhpAudit.Grammar.Token
import PhpAudit.Grammar.Tree
import PhpAudit.Json.Basic
import PhpAudit.Json.Reader
import PhpAudit.Json.Writer
import PhpAudit.Number.Binary64
import PhpAudit.Number.Integer
import PhpAudit.Number.Rounding
import PhpAudit.Number.Shortest
import PhpAudit.Number.Spelling
import PhpAudit.Pattern.Basic
import PhpAudit.Pattern.Reader
import PhpAudit.Pattern.Wildcard
import PhpAudit.Report.Collection
import PhpAudit.Report.Console
import PhpAudit.Report.Description
import PhpAudit.Report.Document
import PhpAudit.Report.Issue
import PhpAudit.Report.Result
import PhpAudit.Report.Severity
import PhpAudit.Settings.Basic
import PhpAudit.Settings.Check
import PhpAudit.Settings.EnvFile
import PhpAudit.Settings.Sources
import PhpAudit.Snippet.Basic
import PhpAudit.Snippet.Signature
import PhpAudit.Snippet.Window
import PhpAudit.Syntax.Node
import PhpAudit.Syntax.Query
import PhpAudit.Syntax.Reading
import PhpAudit.Syntax.Source
import PhpAudit.Syntax.Walk
import PhpAudit.Text.Blank
import PhpAudit.Text.CellWidth
import PhpAudit.Text.DecimalDigit
import PhpAudit.Text.Lines
import PhpAudit.Text.Lowercase
import PhpAudit.Text.Malformed
import PhpAudit.Text.Printable
import PhpAudit.Text.Quoted
import PhpAudit.Text.Ranges
import PhpAudit.Text.Utf8
import PhpAudit.Text.WordChar
import PhpAudit.Proofs.Snippet.Numbered
import PhpAudit.Proofs.Snippet.Window
import PhpAudit.Proofs.Syntax.Walk
import PhpAudit.Proofs.Syntax.Query
import PhpAudit.Proofs.Syntax.Stream
import PhpAudit.Proofs.Syntax.Reading
import PhpAudit.Proofs.Syntax.Retained
import PhpAudit.Proofs.Audit.Calls
import PhpAudit.Proofs.Audit.DangerousCalls
import PhpAudit.Proofs.Audit.RawQueries
import PhpAudit.Proofs.Syntax.Calls
import PhpAudit.Proofs.Data.Record
import PhpAudit.Proofs.Data.Related
import PhpAudit.Proofs.Json.Document
import PhpAudit.Proofs.Json.Token
import PhpAudit.Proofs.Json.Value
import PhpAudit.Proofs.Number.Interval
import PhpAudit.Proofs.Number.Range
import PhpAudit.Proofs.Number.ReadBack
import PhpAudit.Proofs.Number.Shortest
import PhpAudit.Proofs.Report.Document
import PhpAudit.Proofs.Report.ReadBack
import PhpAudit.Proofs.Text.Decoding
import PhpAudit.Proofs.Text.ByteLines
import PhpAudit.Proofs.Audit.Snippets
import PhpAudit.Proofs.Files.Tree
import PhpAudit.Proofs.Files.Path
import PhpAudit.Proofs.Pattern.Wildcard
import PhpAudit.Proofs.Audit.Discovery
import PhpAudit.Proofs.Audit.Location
import PhpAudit.Proofs.Audit.History
import PhpAudit.Proofs.Syntax.Payload
import PhpAudit.Proofs.Syntax.SourceOrder
import PhpAudit.Proofs.Syntax.Stripping
import PhpAudit.Proofs.Audit.Subdirectory
import PhpAudit.Proofs.Snippet.Nearest
import PhpAudit.Proofs.Data.Spelling
import PhpAudit.Proofs.Report.Outline
import PhpAudit.Proofs.Report.Setting
import PhpAudit.Proofs.Report.Colours
import PhpAudit.Proofs.Report.Agreement
import PhpAudit.Proofs.Report.Listing
import PhpAudit.Proofs.Text.Ascii
import PhpAudit.Proofs.Syntax.Interpolation
import PhpAudit.Proofs.Syntax.Kinds
import PhpAudit.Proofs.Syntax.Quoted
import PhpAudit.Proofs.Files.Ranges
import PhpAudit.Proofs.Text.Endings
import PhpAudit.Proofs.Files.Numbering
import PhpAudit.Proofs.Text.Blank
import PhpAudit.Proofs.Text.LetterCase
import PhpAudit.Proofs.Audit.Environment
import PhpAudit.Proofs.Syntax.Owner
import PhpAudit.Proofs.Report.Escapes
import PhpAudit.Proofs.Files.Namespace
import PhpAudit.Proofs.Syntax.Preorder
import PhpAudit.Proofs.Files.Lines
import PhpAudit.Proofs.Report.Score
import PhpAudit.Proofs.Files.Comments
