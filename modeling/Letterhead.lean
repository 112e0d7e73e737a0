import Letterhead.Cell.Layout
import Letterhead.Cell.State
import Letterhead.CommandLine.Arguments
import Letterhead.CommandLine.Run
import Letterhead.Config
import Letterhead.Decimal.Plain
import Letterhead.Decimal.Read
import Letterhead.Decimal.Shortest
import Letterhead.Font
import Letterhead.Geometry
import Letterhead.Job
import Letterhead.Json.Basic
import Letterhead.Json.Number
import Letterhead.Json.Quoted
import Letterhead.Json.Record
import Letterhead.Json.Skip
import Letterhead.Json.Value
import Letterhead.Main
import Letterhead.Markup.Attributes
import Letterhead.Markup.Token
import Letterhead.Overlay
import Letterhead.Pdf.Content
import Letterhead.Pdf.Document
import Letterhead.Pdf.File
import Letterhead.Pdf.Filter.Ascii85
import Letterhead.Pdf.Filter.Delivery
import Letterhead.Pdf.Filter.Inflate
import Letterhead.Pdf.Filter.Lzw
import Letterhead.Pdf.Filter.Predictor
import Letterhead.Pdf.Filter.Zlib
import Letterhead.Pdf.Found
import Letterhead.Pdf.Load
import Letterhead.Pdf.Notation
import Letterhead.Pdf.Object
import Letterhead.Pdf.Packed
import Letterhead.Pdf.PageTree
import Letterhead.Pdf.Scan
import Letterhead.Pdf.Stream
import Letterhead.Pdf.Table
import Letterhead.Pdf.TableStream
import Letterhead.Proofs.Cell.History
import Letterhead.Proofs.Cell.Sizes
import Letterhead.Proofs.Config.Saving
import Letterhead.Proofs.Config.Validity
import Letterhead.Proofs.Decimal.Figures
import Letterhead.Proofs.Float.Advance
import Letterhead.Proofs.Float.Arithmetic
import Letterhead.Proofs.Float.Comparison
import Letterhead.Proofs.Float.Magnitude
import Letterhead.Proofs.Float.Monotone
import Letterhead.Proofs.Float.Order
import Letterhead.Proofs.Float.Rounding
import Letterhead.Proofs.Float.Storage
import Letterhead.Proofs.Json.Members
import Letterhead.Proofs.Json.RoundTrip
import Letterhead.Proofs.Markup.Division
import Letterhead.Proofs.Markup.Expressions
import Letterhead.Proofs.Markup.LetterCase
import Letterhead.Proofs.Markup.LineEndings
import Letterhead.Proofs.Pdf.Ancestry
import Letterhead.Proofs.Pdf.Extension
import Letterhead.Proofs.Pdf.Lookup
import Letterhead.Proofs.Pdf.Painting
import Letterhead.Proofs.Pdf.ReadBack
import Letterhead.Proofs.Pdf.Reference
import Letterhead.Proofs.Pdf.Renumbering
import Letterhead.Proofs.Pdf.Words
import Letterhead.Proofs.Rendering.Calls
import Letterhead.Proofs.Rendering.Conservation
import Letterhead.Proofs.Rendering.Document
import Letterhead.Proofs.Rendering.Dressing
import Letterhead.Proofs.Rendering.Invariant
import Letterhead.Proofs.Rendering.Journal
import Letterhead.Proofs.Rendering.LetterCase
import Letterhead.Proofs.Rendering.LineEndings
import Letterhead.Proofs.Rendering.Minutes
import Letterhead.Proofs.Rendering.Moderation
import Letterhead.Proofs.Rendering.Noninterference
import Letterhead.Proofs.Rendering.PageNumbers
import Letterhead.Proofs.Rendering.Replacements
import Letterhead.Proofs.Rendering.Requests
import Letterhead.Proofs.Rendering.Room
import Letterhead.Proofs.Rendering.StrayTags
import Letterhead.Proofs.Rendering.Tracing
import Letterhead.Proofs.Rendering.Turns
import Letterhead.Proofs.Rendering.Walk
import Letterhead.Proofs.Style.Counts
import Letterhead.Proofs.Surface.Assembly
import Letterhead.Proofs.Surface.BlankLines
import Letterhead.Proofs.Surface.Bounds
import Letterhead.Proofs.Surface.CellWidths
import Letterhead.Proofs.Surface.Cells
import Letterhead.Proofs.Surface.Drawing
import Letterhead.Proofs.Surface.Dressing
import Letterhead.Proofs.Surface.Erasure
import Letterhead.Proofs.Surface.Finality
import Letterhead.Proofs.Surface.Fonts
import Letterhead.Proofs.Surface.FormTable
import Letterhead.Proofs.Surface.Fragments
import Letterhead.Proofs.Surface.Glyphs
import Letterhead.Proofs.Surface.History
import Letterhead.Proofs.Surface.Lengths
import Letterhead.Proofs.Surface.Pagination
import Letterhead.Proofs.Surface.Painting
import Letterhead.Proofs.Surface.Refusals
import Letterhead.Proofs.Surface.Runs
import Letterhead.Proofs.Surface.Stamping
import Letterhead.Proofs.Surface.Wrapping
import Letterhead.Proofs.Surface.Written
import Letterhead.Proofs.Template.Completion
import Letterhead.Proofs.Template.Contents
import Letterhead.Proofs.Template.Evaluation
import Letterhead.Proofs.Template.Forms
import Letterhead.Proofs.Template.Growth
import Letterhead.Proofs.Template.Inheritance
import Letterhead.Proofs.Template.Integrity
import Letterhead.Proofs.Template.Reach
import Letterhead.Proofs.Template.Renaming
import Letterhead.Proofs.Template.Sharing
import Letterhead.Proofs.Template.Tally
import Letterhead.Proofs.Template.Termination
import Letterhead.Proofs.Text.Rows
import Letterhead.Proofs.Text.WinAnsi
import Letterhead.Rendering
import Letterhead.Report
import Letterhead.Style
import Letterhead.Surface.Basic
import Letterhead.Surface.Page
import Letterhead.Surface.Paper
import Letterhead.Surface.Script
import Letterhead.Template.Basic
import Letterhead.Template.Import
import Letterhead.Text.Encoding
import Letterhead.Text.Split
import Letterhead.Text.Uppercase
