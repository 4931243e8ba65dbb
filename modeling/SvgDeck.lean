import SvgDeck.Animation
import SvgDeck.Asset
import SvgDeck.Bundle
import SvgDeck.CommandLine.Build
import SvgDeck.CommandLine.Check
import SvgDeck.CommandLine.Options
import SvgDeck.Deck.Build
import SvgDeck.Deck.Load
import SvgDeck.Deck.Starter
import SvgDeck.Directive.Focus
import SvgDeck.Directive.Highlight
import SvgDeck.Directive.Reading
import SvgDeck.Directive.Rect
import SvgDeck.Directive.Timing
import SvgDeck.Document
import SvgDeck.Drawing
import SvgDeck.Failure
import SvgDeck.Fault
import SvgDeck.FlowId
import SvgDeck.Folder.Path
import SvgDeck.Folder.Workspace
import SvgDeck.Json.Basic
import SvgDeck.Json.Grammar
import SvgDeck.Json.Printer
import SvgDeck.Json.Reader
import SvgDeck.Main
import SvgDeck.Number.Binary64
import SvgDeck.Number.Decimal
import SvgDeck.Number.Literal
import SvgDeck.Number.Numeral
import SvgDeck.Number.Shortest
import SvgDeck.Outline
import SvgDeck.Page.Elements
import SvgDeck.Page.Player
import SvgDeck.Page.ScriptData
import SvgDeck.Page.Skeleton
import SvgDeck.Page.Style
import SvgDeck.Page.Template
import SvgDeck.Run
import SvgDeck.Schema.Checked
import SvgDeck.Schema.Directive
import SvgDeck.Schema.Document
import SvgDeck.Schema.Finding
import SvgDeck.Schema.Scalar
import SvgDeck.Text.Basic
import SvgDeck.Text.Blank
import SvgDeck.Text.Digit
import SvgDeck.Text.Escaped
import SvgDeck.Text.Printable
import SvgDeck.Text.Quoted
import SvgDeck.Text.Search
import SvgDeck.Text.Utf8
import SvgDeck.Value
import SvgDeck.Yaml.Cursor
import SvgDeck.Yaml.Data
import SvgDeck.Yaml.Fault
import SvgDeck.Yaml.Merge
import SvgDeck.Yaml.Node
import SvgDeck.Yaml.Node.Reader
import SvgDeck.Yaml.Property
import SvgDeck.Yaml.Scalar.Binary
import SvgDeck.Yaml.Scalar.Block
import SvgDeck.Yaml.Scalar.Date
import SvgDeck.Yaml.Scalar.Number
import SvgDeck.Yaml.Scalar.Plain
import SvgDeck.Yaml.Scalar.Quoted
import SvgDeck.Yaml.Tag
import SvgDeck.Yaml.Token
import SvgDeck.Yaml.Tokenizer
import SvgDeck.Proofs.FirstFault
import SvgDeck.Proofs.FirstSeen
import SvgDeck.Proofs.FlowId
import SvgDeck.Proofs.Outline
import SvgDeck.Proofs.Animation
import SvgDeck.Proofs.Asset
import SvgDeck.Proofs.Bundle
import SvgDeck.Proofs.Validity
import SvgDeck.Proofs.Path
import SvgDeck.Proofs.Verdict
import SvgDeck.Proofs.Markup
import SvgDeck.Proofs.Page
import SvgDeck.Proofs.Change
import SvgDeck.Proofs.Load
import SvgDeck.Proofs.Build
import SvgDeck.Proofs.Starter
import SvgDeck.Proofs.Escape
import SvgDeck.Proofs.Commands
import SvgDeck.Proofs.Reports
import SvgDeck.Proofs.Qualified
import SvgDeck.Proofs.Rebuild
import SvgDeck.Proofs.Passes
import SvgDeck.Proofs.Agreement
import SvgDeck.Proofs.Inputs
import SvgDeck.Proofs.Payload
import SvgDeck.Proofs.Decimal
import SvgDeck.Proofs.Grammar
import SvgDeck.Proofs.Directives
import SvgDeck.Proofs.Exactness
import SvgDeck.Proofs.Highlight
import SvgDeck.Proofs.FlowPass
import SvgDeck.Proofs.Script
import SvgDeck.Proofs.Body
import SvgDeck.Proofs.Template
import SvgDeck.Proofs.ScriptData
import SvgDeck.Proofs.ScriptComment
import SvgDeck.Proofs.ScriptTexts
import SvgDeck.Proofs.ScriptEnd
import SvgDeck.Proofs.Elements
import SvgDeck.Proofs.Drawing
import SvgDeck.Proofs.Misread
import SvgDeck.Proofs.Fields
import SvgDeck.Proofs.Respelling
import SvgDeck.Proofs.FaultReport
import SvgDeck.Proofs.JsonGrammar
import SvgDeck.Proofs.JsonNames
import SvgDeck.Proofs.Narration
import SvgDeck.Proofs.Serialization
import SvgDeck.Proofs.Containment
import SvgDeck.Proofs.DocumentSearch
import SvgDeck.Proofs.Pictures
import SvgDeck.Proofs.Utf8
import SvgDeck.Proofs.StarterDocument
import SvgDeck.Proofs.Seeding
