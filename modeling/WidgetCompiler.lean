import WidgetCompiler.Bound.Basic
import WidgetCompiler.Catalog.Basic
import WidgetCompiler.Catalog.Builtin
import WidgetCompiler.Catalog.Document
import WidgetCompiler.Catalog.Field
import WidgetCompiler.Catalog.Template
import WidgetCompiler.CommandLine.Command
import WidgetCompiler.CommandLine.Help
import WidgetCompiler.CommandLine.Run
import WidgetCompiler.Control.Basic
import WidgetCompiler.Control.Printer
import WidgetCompiler.Conversion
import WidgetCompiler.Failure
import WidgetCompiler.Identity.Basic
import WidgetCompiler.Identity.Sources
import WidgetCompiler.Main
import WidgetCompiler.Markup.Construction.Body
import WidgetCompiler.Markup.Construction.Formatting
import WidgetCompiler.Markup.Construction.Head
import WidgetCompiler.Markup.Construction.Rules
import WidgetCompiler.Markup.Construction.State
import WidgetCompiler.Markup.Construction.Table
import WidgetCompiler.Markup.Construction.Vocabulary
import WidgetCompiler.Markup.Document
import WidgetCompiler.Markup.Element
import WidgetCompiler.Markup.Escape
import WidgetCompiler.Markup.Fragment
import WidgetCompiler.Markup.Reference
import WidgetCompiler.Markup.ReferenceTable
import WidgetCompiler.Markup.Sanitize
import WidgetCompiler.Markup.StartTag
import WidgetCompiler.Markup.Token
import WidgetCompiler.Php.Literal
import WidgetCompiler.Php.Writer
import WidgetCompiler.Proofs.Markup.StartTags
import WidgetCompiler.Proofs.Php.Modes
import WidgetCompiler.Proofs.Php.Region
import WidgetCompiler.Proofs.Php.Scan
import WidgetCompiler.Proofs.Php.Transitions
import WidgetCompiler.Proofs.Render.Outline
import WidgetCompiler.Proofs.Render.PlanMarkup
import WidgetCompiler.Proofs.Text.Blank
import WidgetCompiler.Proofs.Text.Seam
import WidgetCompiler.Render.Plan
import WidgetCompiler.Render.Planner
import WidgetCompiler.Render.Preview
import WidgetCompiler.Settings.Basic
import WidgetCompiler.Settings.Document
import WidgetCompiler.Style.Prepare
import WidgetCompiler.Style.Reader
import WidgetCompiler.Style.Selector
import WidgetCompiler.Style.Sheet
import WidgetCompiler.Text.Basic
import WidgetCompiler.Text.Dictionary
import WidgetCompiler.Text.Json
import WidgetCompiler.Text.Letters
import WidgetCompiler.Text.Lowercase
import WidgetCompiler.Text.Pattern
import WidgetCompiler.Validation.Basic
import WidgetCompiler.Validation.Markers
import WidgetCompiler.Validation.Problem
import WidgetCompiler.Validation.Quotes
import WidgetCompiler.Validation.RenderModes
import WidgetCompiler.Validation.Report
import WidgetCompiler.Validation.Source
import WidgetCompiler.Widget.Basic
import WidgetCompiler.Widget.Source
import WidgetCompiler.Yaml.Cursor
import WidgetCompiler.Yaml.Node
import WidgetCompiler.Yaml.Printer
import WidgetCompiler.Yaml.Scalar
import WidgetCompiler.Yaml.Token
import WidgetCompiler.Yaml.Value
import WidgetCompiler.Proofs.Render.PlanValues
import WidgetCompiler.Proofs.Render.Routine
import WidgetCompiler.Proofs.Markup.Escaping
import WidgetCompiler.Proofs.Markup.Written
import WidgetCompiler.Proofs.Catalog.Builtin
import WidgetCompiler.Proofs.Control.Defaults
import WidgetCompiler.Proofs.Render.Preview
import WidgetCompiler.Proofs.Render.RoundTrip
import WidgetCompiler.Proofs.Text.AnyCase
import WidgetCompiler.Proofs.Text.Pattern
import WidgetCompiler.Proofs.Text.Places
import WidgetCompiler.Proofs.Validation.Markers
import WidgetCompiler.Proofs.Text.Pieces
import WidgetCompiler.Proofs.Validation.Quotes
import WidgetCompiler.Proofs.Validation.RenderModes
import WidgetCompiler.Proofs.Php.Turns
import WidgetCompiler.Proofs.Validation.Code
import WidgetCompiler.Proofs.Validation.Turns
import WidgetCompiler.Proofs.Validation.Report
import WidgetCompiler.Proofs.Text.Plain
import WidgetCompiler.Proofs.Identity.Plain
import WidgetCompiler.Proofs.Validation.Sections
import WidgetCompiler.Proofs.Validation.Elements
import WidgetCompiler.Proofs.Php.Execution
import WidgetCompiler.Proofs.Php.Reading
import WidgetCompiler.Proofs.Php.Segments
import WidgetCompiler.Proofs.Render.Agreement
import WidgetCompiler.Proofs.Php.RegionRun
import WidgetCompiler.Proofs.Render.Execution
import WidgetCompiler.Proofs.Catalog.Accepted
import WidgetCompiler.Proofs.Widget.CustomCode
import WidgetCompiler.Proofs.Widget.Closed
import WidgetCompiler.Proofs.Text.Extract
import WidgetCompiler.Proofs.Markup.Pieces
import WidgetCompiler.Proofs.Markup.Sanitized
import WidgetCompiler.Proofs.Markup.Separation
import WidgetCompiler.Proofs.Style.Selectors
import WidgetCompiler.Proofs.Style.Pruning
import WidgetCompiler.Proofs.Markup.Untouched
import WidgetCompiler.Proofs.Validation.Statements
import WidgetCompiler.Proofs.Validation.Method
import WidgetCompiler.Proofs.Validation.Generated
import WidgetCompiler.Proofs.Widget.Parts
import WidgetCompiler.Proofs.Php.Spelling
import WidgetCompiler.Proofs.Widget.Literals
import WidgetCompiler.Proofs.Render.Marks
import WidgetCompiler.Proofs.Catalog.Inheritance
import WidgetCompiler.Proofs.Style.Reading
import WidgetCompiler.Proofs.Style.RoundTrip
import WidgetCompiler.Proofs.Text.Scanner
import WidgetCompiler.Proofs.Style.Scanners
import WidgetCompiler.Proofs.Style.Rereading
import WidgetCompiler.Proofs.Style.Silence
import WidgetCompiler.Proofs.Style.Stripping
import WidgetCompiler.Proofs.Text.MadeOf
import WidgetCompiler.Proofs.Style.Characters
import WidgetCompiler.Proofs.Markup.Characters
import WidgetCompiler.Proofs.Identity.Sources
import WidgetCompiler.Proofs.Text.Words
import WidgetCompiler.Proofs.Identity.Fields
import WidgetCompiler.Proofs.Identity.Names
import WidgetCompiler.Proofs.Identity.Resolved
import WidgetCompiler.Proofs.Identity.Priority
import WidgetCompiler.Proofs.Identity.Comment
import WidgetCompiler.Proofs.Control.Characters
import WidgetCompiler.Proofs.Validation.Quoting
import WidgetCompiler.Proofs.Validation.QuotedSource
import WidgetCompiler.Proofs.Render.Spans
import WidgetCompiler.Proofs.Validation.Leading
import WidgetCompiler.Proofs.Validation.Scanning
import WidgetCompiler.Proofs.Validation.Insertion
import WidgetCompiler.Proofs.Validation.DoubledOpening
import WidgetCompiler.Proofs.Markup.Nesting
import WidgetCompiler.Proofs.Style.Leaves
import WidgetCompiler.Proofs.Style.Octets
import WidgetCompiler.Proofs.Style.Comments
import WidgetCompiler.Proofs.Style.Scoping
import WidgetCompiler.Proofs.Php.Bodies
import WidgetCompiler.Proofs.Validation.Positions
import WidgetCompiler.Proofs.Validation.StyleDefault
import WidgetCompiler.Proofs.Validation.Lexing
import WidgetCompiler.Proofs.Validation.Octets
import WidgetCompiler.Proofs.Validation.Faults
import WidgetCompiler.Proofs.Catalog.Merging
import WidgetCompiler.Proofs.Control.Selectors
import WidgetCompiler.Proofs.Widget.Ids
import WidgetCompiler.Proofs.Style.SelectorLists
import WidgetCompiler.Proofs.Markup.References
import WidgetCompiler.Proofs.Markup.Scanning
import WidgetCompiler.Proofs.Render.Merged
import WidgetCompiler.Proofs.Markup.Layout
import WidgetCompiler.Proofs.Markup.Scanning
