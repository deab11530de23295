import KeyHarvest.Text.Basic
import KeyHarvest.Text.Blank
import KeyHarvest.Text.Digit
import KeyHarvest.Text.Word
import KeyHarvest.Text.CaseRun
import KeyHarvest.Text.Letter
import KeyHarvest.Text.Lower
import KeyHarvest.Text.Upper
import KeyHarvest.Number.Binary64
import KeyHarvest.Number.Spelling
import KeyHarvest.Number.Limit
import KeyHarvest.Expr.Basic
import KeyHarvest.Expr.Escape
import KeyHarvest.Expr.Token
import KeyHarvest.Expr.Error
import KeyHarvest.Expr.Lexeme
import KeyHarvest.Expr.Grammar
import KeyHarvest.Expr.Substitution
import KeyHarvest.Expr.Parse
import KeyHarvest.Expr.Interpolation
import KeyHarvest.Expr.Literals
import KeyHarvest.Catalog.Basic
import KeyHarvest.Markup.CharrefNames
import KeyHarvest.Markup.Charref
import KeyHarvest.Markup.Mask
import KeyHarvest.Markup.Node
import KeyHarvest.Markup.Tag
import KeyHarvest.Markup.Memory
import KeyHarvest.Markup.Piece
import KeyHarvest.Markup.Nesting
import KeyHarvest.Text.Lines
import KeyHarvest.Template.Node
import KeyHarvest.Template.Error
import KeyHarvest.Template.Attribute
import KeyHarvest.Template.Build
import KeyHarvest.Script.Extent
import KeyHarvest.Script.Token
import KeyHarvest.Script.Tree
import KeyHarvest.Script.Decorator
import KeyHarvest.Files.Extension
import KeyHarvest.Script.Component
import KeyHarvest.Text.Pattern
import KeyHarvest.Keys.Quoted
import KeyHarvest.Keys.Marked
import KeyHarvest.Text.Utf8
import KeyHarvest.Files.Path
import KeyHarvest.Files.Tree
import KeyHarvest.Files.Glob
import KeyHarvest.Files.Ignore
import KeyHarvest.Yaml.Value
import KeyHarvest.Yaml.Fault
import KeyHarvest.Yaml.Schema
import KeyHarvest.Yaml.Scalar
import KeyHarvest.Yaml.Token
import KeyHarvest.Yaml.Document
import KeyHarvest.Config.Basic
import KeyHarvest.Config.Load
import KeyHarvest.Files.Discovery
import KeyHarvest.Extraction.Source
import KeyHarvest.Extraction.Report
import KeyHarvest.Json.Value
import KeyHarvest.Text.Shown
import KeyHarvest.Command.Flag
import KeyHarvest.Command.Request
import KeyHarvest.Command.Outcome
import KeyHarvest.Main
import KeyHarvest.Proofs.Expr.Reading
import KeyHarvest.Proofs.Expr.Derivation
import KeyHarvest.Proofs.Expr.Soundness
import KeyHarvest.Proofs.Expr.Printer
import KeyHarvest.Proofs.Expr.Lexing
import KeyHarvest.Proofs.Expr.RoundTrip
import KeyHarvest.Proofs.Catalog.Insert
import KeyHarvest.Proofs.Template.Order
import KeyHarvest.Proofs.Keys.Marked
import KeyHarvest.Proofs.Expr.Simulation
import KeyHarvest.Proofs.Expr.Oversized
import KeyHarvest.Proofs.Markup.Charref
import KeyHarvest.Proofs.Template.Passages
import KeyHarvest.Proofs.Extraction.Containment
import KeyHarvest.Proofs.Template.Unmarked
import KeyHarvest.Proofs.Extraction.Merge
import KeyHarvest.Proofs.Expr.Offset
import KeyHarvest.Proofs.Expr.Quoting
import KeyHarvest.Proofs.Expr.Enclosed
import KeyHarvest.Proofs.Markup.Forest
import KeyHarvest.Proofs.Markup.Shift
import KeyHarvest.Proofs.Markup.Nest
import KeyHarvest.Proofs.Markup.Extent
import KeyHarvest.Proofs.Markup.Tree
import KeyHarvest.Proofs.Markup.Behind
import KeyHarvest.Proofs.Template.Shift
import KeyHarvest.Proofs.Template.Beside
import KeyHarvest.Proofs.Markup.Mask
import KeyHarvest.Proofs.Template.Append
import KeyHarvest.Proofs.Template.Comment
import KeyHarvest.Proofs.Number.Nearest
import KeyHarvest.Proofs.Expr.Numeral
import KeyHarvest.Proofs.Expr.Forms
import KeyHarvest.Proofs.Expr.Pieces
import KeyHarvest.Proofs.Expr.Scan
import KeyHarvest.Proofs.Expr.Layout
import KeyHarvest.Expr.Session
import KeyHarvest.Proofs.Expr.Desk
import KeyHarvest.Proofs.Expr.Session
import KeyHarvest.Proofs.Json.Render
import KeyHarvest.Proofs.Expr.Origin
import KeyHarvest.Proofs.Template.Origin
import KeyHarvest.Proofs.Extraction.Encodable
import KeyHarvest.Proofs.Catalog.Lookup
import KeyHarvest.Proofs.Catalog.Sort
import KeyHarvest.Proofs.Catalog.History
import KeyHarvest.Proofs.Extraction.Sorted
import KeyHarvest.Proofs.Expr.WellFormed
import KeyHarvest.Proofs.Json.Reading
import KeyHarvest.Proofs.Command.Outcome
import KeyHarvest.Proofs.Expr.Interpolation
import KeyHarvest.Proofs.Expr.Chunks
import KeyHarvest.Proofs.Expr.Position
import KeyHarvest.Proofs.Expr.Spelling
import KeyHarvest.Proofs.Keys.Scanner
import KeyHarvest.Proofs.Keys.Quotation
import KeyHarvest.Proofs.Markup.Coverage
import KeyHarvest.Proofs.Template.Document
import KeyHarvest.Proofs.Expr.Backtick
import KeyHarvest.Proofs.Markup.Layout
import KeyHarvest.Proofs.Template.Tiling
import KeyHarvest.Proofs.Template.Runs
import KeyHarvest.Proofs.Markup.Reference
import KeyHarvest.Proofs.Template.Blank
import KeyHarvest.Proofs.Expr.Alike
import KeyHarvest.Proofs.Template.Bound
import KeyHarvest.Proofs.Markup.Formed
import KeyHarvest.Proofs.Markup.Void
import KeyHarvest.Proofs.Markup.Snug
import KeyHarvest.Proofs.Template.Void
import KeyHarvest.Proofs.Config.Valid
import KeyHarvest.Proofs.Expr.ValuePosition
import KeyHarvest.Proofs.Extraction.Isolation
import KeyHarvest.Proofs.Template.Role
import KeyHarvest.Proofs.Template.Groups
import KeyHarvest.Proofs.Catalog.Algebra
import KeyHarvest.Proofs.Files.Tree
import KeyHarvest.Proofs.Files.Ignore
import KeyHarvest.Proofs.Files.Discovery
import KeyHarvest.Proofs.Number.Shortest
import KeyHarvest.Proofs.Expr.NumberKey
import KeyHarvest.Proofs.Expr.Measure
import KeyHarvest.Proofs.Expr.Progress
import KeyHarvest.Proofs.Markup.Preorder
import KeyHarvest.Proofs.Markup.Traversal
import KeyHarvest.Proofs.Template.Refusal
