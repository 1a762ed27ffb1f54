import Tender.Binding.Basic
import Tender.Binding.Selector
import Tender.Binding.Variable
import Tender.Calendar.Date
import Tender.Calendar.Iso
import Tender.Calendar.Moment
import Tender.Calendar.Pattern
import Tender.Command.Basic
import Tender.Command.Run
import Tender.CommandLine.Basic
import Tender.CommandLine.Word
import Tender.Components
import Tender.Context
import Tender.Counters
import Tender.Document
import Tender.Fault
import Tender.Folder
import Tender.Guard
import Tender.Harvest
import Tender.Helper.Amount
import Tender.Helper.Basic
import Tender.Helper.DateText
import Tender.Helper.Group
import Tender.Helper.Logic
import Tender.Helper.Table
import Tender.Html.Entity
import Tender.Html.Event
import Tender.Html.Node
import Tender.Html.Reference
import Tender.Html.Tag
import Tender.Journal
import Tender.Json.Read
import Tender.Json.Sendable
import Tender.Json.Write
import Tender.Main
import Tender.Number.Binary64
import Tender.Number.Decimal
import Tender.Number.Integer
import Tender.Number.Shortest
import Tender.PageBreak.Marker
import Tender.PageBreak.Split
import Tender.Proofs.Agreement
import Tender.Proofs.Alignment
import Tender.Proofs.Binding.Control
import Tender.Proofs.Binding.Keyed
import Tender.Proofs.Binding.Page
import Tender.Proofs.Binding.Pages
import Tender.Proofs.Binding.Pass
import Tender.Proofs.Binding.Replacement
import Tender.Proofs.Binding.Settled
import Tender.Proofs.Calendar.Iso
import Tender.Proofs.Calendar.Pattern
import Tender.Proofs.CleanEnding
import Tender.Proofs.CommandLine
import Tender.Proofs.Components
import Tender.Proofs.Context
import Tender.Proofs.Counters
import Tender.Proofs.Document
import Tender.Proofs.Escaped
import Tender.Proofs.Gapless
import Tender.Proofs.Guard
import Tender.Proofs.Guard.Hidden
import Tender.Proofs.Guard.RoundTrip
import Tender.Proofs.Guard.Total
import Tender.Proofs.Harvest
import Tender.Proofs.Helper.Cents
import Tender.Proofs.Helper.DateText
import Tender.Proofs.Helper.Group
import Tender.Proofs.Helper.Money
import Tender.Proofs.Helper.Order
import Tender.Proofs.Helper.Printed
import Tender.Proofs.Helper.Reading
import Tender.Proofs.Helper.Reread
import Tender.Proofs.Helper.StandardText
import Tender.Proofs.Helper.Texts
import Tender.Proofs.Html.Element
import Tender.Proofs.Html.Event
import Tender.Proofs.Html.Node
import Tender.Proofs.Html.Order
import Tender.Proofs.Html.Reference
import Tender.Proofs.Html.Running
import Tender.Proofs.Html.Tag
import Tender.Proofs.LifeCycle
import Tender.Proofs.Number.Decimal
import Tender.Proofs.Number.Exact
import Tender.Proofs.Number.Integer
import Tender.Proofs.Number.Nearest
import Tender.Proofs.Number.Shortest
import Tender.Proofs.Numbering
import Tender.Proofs.Outline
import Tender.Proofs.PageBreak.Document
import Tender.Proofs.PageBreak.Form
import Tender.Proofs.PageBreak.Replaced
import Tender.Proofs.PageBreak.Split
import Tender.Proofs.PageBreak.Stable
import Tender.Proofs.Plain
import Tender.Proofs.Record.Accepted
import Tender.Proofs.Record.Estimate
import Tender.Proofs.Record.Normal
import Tender.Proofs.Record.Shape
import Tender.Proofs.Record.Survey
import Tender.Proofs.Record.Variables
import Tender.Proofs.Refusal
import Tender.Proofs.Renderer
import Tender.Proofs.Repetition
import Tender.Proofs.RoundTrip
import Tender.Proofs.Substitution
import Tender.Proofs.Template.Alone
import Tender.Proofs.Template.Body
import Tender.Proofs.Template.Brace
import Tender.Proofs.Template.Branch
import Tender.Proofs.Template.Builder
import Tender.Proofs.Template.Call
import Tender.Proofs.Template.Chain
import Tender.Proofs.Template.Concat
import Tender.Proofs.Template.Condition
import Tender.Proofs.Template.Failure
import Tender.Proofs.Template.Kin
import Tender.Proofs.Template.Lexeme
import Tender.Proofs.Template.Limit
import Tender.Proofs.Template.Link
import Tender.Proofs.Template.Literal
import Tender.Proofs.Template.Locality
import Tender.Proofs.Template.Name
import Tender.Proofs.Template.Outward
import Tender.Proofs.Template.Page
import Tender.Proofs.Template.Piece
import Tender.Proofs.Template.Reading
import Tender.Proofs.Template.Registered
import Tender.Proofs.Template.Shown
import Tender.Proofs.Template.Spelling
import Tender.Proofs.Template.Stop
import Tender.Proofs.Template.Strip
import Tender.Proofs.Template.Terms
import Tender.Proofs.Template.Twin
import Tender.Proofs.Template.Unroll
import Tender.Proofs.Template.Walk
import Tender.Proofs.Template.When
import Tender.Proofs.Template.Word
import Tender.Proofs.Template.Written
import Tender.Proofs.Text.Blank
import Tender.Proofs.Text.Cut
import Tender.Proofs.Text.Markup
import Tender.Proofs.Text.Scan
import Tender.Proofs.Text.Search
import Tender.Proofs.Text.Tilde
import Tender.Proofs.Token
import Tender.Proofs.Value.Entries
import Tender.Proofs.Value.Order
import Tender.Proofs.Value.Print
import Tender.Record.Estimate
import Tender.Record.LineItem
import Tender.Record.Proposal
import Tender.Record.Starter
import Tender.Record.Survey
import Tender.Service.Basic
import Tender.Service.Form
import Tender.Service.Message
import Tender.Settings.Basic
import Tender.Settings.Dotenv
import Tender.Settings.Reading
import Tender.Template.Compiler
import Tender.Template.Expr
import Tender.Template.Lexeme
import Tender.Template.Node
import Tender.Template.Piece
import Tender.Template.Problem
import Tender.Template.Render
import Tender.Template.Term
import Tender.Text.Basic
import Tender.Text.Blank
import Tender.Text.Case
import Tender.Text.Digit
import Tender.Text.Half
import Tender.Text.Identifier
import Tender.Text.Markup
import Tender.Text.Path
import Tender.Text.Printable
import Tender.Text.Quoted
import Tender.Text.Scan
import Tender.Text.Search
import Tender.Text.Utf8
import Tender.Token
import Tender.Value.Basic
import Tender.Value.Order
import Tender.Value.Print
