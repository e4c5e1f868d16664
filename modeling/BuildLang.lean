import BuildLang.Check.File
import BuildLang.Check.TextMatch
import BuildLang.Check.Value
import BuildLang.Command
import BuildLang.Command.Arguments
import BuildLang.Command.Directory
import BuildLang.Command.LogFilter
import BuildLang.Decimal.Binary64
import BuildLang.Decimal.Reading
import BuildLang.Decimal.Shortest
import BuildLang.Decimal.Style
import BuildLang.Diagnostic
import BuildLang.Format
import BuildLang.Grammar.Combinator
import BuildLang.Grammar.CommaList
import BuildLang.Grammar.Document
import BuildLang.Grammar.Fault
import BuildLang.Grammar.Reply
import BuildLang.Grammar.Statement
import BuildLang.Grammar.Value
import BuildLang.Json.Basic
import BuildLang.Json.Token
import BuildLang.Json.Tree
import BuildLang.Layout.Emitter
import BuildLang.Layout.File
import BuildLang.Layout.Line
import BuildLang.Layout.Value
import BuildLang.Main
import BuildLang.Parse
import BuildLang.Placement
import BuildLang.Position
import BuildLang.Process
import BuildLang.Proofs.Acceptance
import BuildLang.Proofs.Calls
import BuildLang.Proofs.CleanLayout
import BuildLang.Proofs.CommaReports
import BuildLang.Proofs.Containment
import BuildLang.Proofs.Expectations
import BuildLang.Proofs.Formatting
import BuildLang.Proofs.Grammar.Advance
import BuildLang.Proofs.Grammar.Bounds
import BuildLang.Proofs.Grammar.CommaList
import BuildLang.Proofs.Grammar.Documents
import BuildLang.Proofs.Grammar.Form
import BuildLang.Proofs.Grammar.Honest
import BuildLang.Proofs.Grammar.HonestGrammar
import BuildLang.Proofs.Grammar.Lays
import BuildLang.Proofs.Grammar.Reads
import BuildLang.Proofs.Grammar.Shifts
import BuildLang.Proofs.Grammar.Skipping
import BuildLang.Proofs.Grammar.Statements
import BuildLang.Proofs.Grammar.Steps
import BuildLang.Proofs.Grammar.Strays
import BuildLang.Proofs.Grammar.Surplus
import BuildLang.Proofs.Grammar.Tidy
import BuildLang.Proofs.Grammar.Values
import BuildLang.Proofs.Grammar.Written
import BuildLang.Proofs.JsonTrees
import BuildLang.Proofs.Layout.Bare
import BuildLang.Proofs.Layout.Emitter
import BuildLang.Proofs.Layout.Files
import BuildLang.Proofs.Layout.Lines
import BuildLang.Proofs.Layout.LoadOrder
import BuildLang.Proofs.Layout.Passages
import BuildLang.Proofs.Layout.Shape
import BuildLang.Proofs.Layout.Values
import BuildLang.Proofs.LineOrder
import BuildLang.Proofs.Misplacement
import BuildLang.Proofs.NodePlaces
import BuildLang.Proofs.Placement
import BuildLang.Proofs.PlainReports
import BuildLang.Proofs.Progress
import BuildLang.Proofs.Recovery
import BuildLang.Proofs.Reports
import BuildLang.Proofs.RoundTrip
import BuildLang.Proofs.Segments
import BuildLang.Proofs.Spacing
import BuildLang.Proofs.Survival
import BuildLang.Proofs.Text.ByteOrder
import BuildLang.Proofs.Text.LetterCase
import BuildLang.Proofs.Tiling
import BuildLang.Proofs.Token.Catalogue
import BuildLang.Proofs.Token.Image
import BuildLang.Proofs.Token.Longest
import BuildLang.Proofs.Token.Regions
import BuildLang.Proofs.Token.Rendering
import BuildLang.Proofs.Token.Spelling
import BuildLang.Proofs.TokenLines
import BuildLang.Proofs.TrailingCommas
import BuildLang.Proofs.Tree.Arguments
import BuildLang.Proofs.Tree.Bare
import BuildLang.Proofs.Tree.Canonical
import BuildLang.Proofs.Tree.CanonicalFile
import BuildLang.Proofs.Tree.Legal
import BuildLang.Proofs.Tree.Moving
import BuildLang.Proofs.Tree.Outline
import BuildLang.Proofs.Tree.Slots
import BuildLang.Proofs.Tree.Sorting
import BuildLang.Proofs.Tree.WellFormed
import BuildLang.Sample
import BuildLang.Settings
import BuildLang.Settings.Key
import BuildLang.Settings.Table
import BuildLang.Settings.Tree
import BuildLang.Text.Blank
import BuildLang.Text.CaseContext
import BuildLang.Text.CodeRange
import BuildLang.Text.Dump
import BuildLang.Text.Lowercase
import BuildLang.Text.Shapeless
import BuildLang.Token
import BuildLang.Token.Pattern
import BuildLang.Token.Piece
import BuildLang.Tree.Dump
import BuildLang.Tree.File
import BuildLang.Tree.Kind
import BuildLang.Tree.Literal
import BuildLang.Tree.Load
import BuildLang.Tree.Number
import BuildLang.Tree.Package
import BuildLang.Tree.Value
