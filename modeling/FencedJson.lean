import FencedJson.Check.BlockError
import FencedJson.Check.Checker
import FencedJson.Check.Extraction
import FencedJson.Check.Pool
import FencedJson.Check.Position
import FencedJson.Check.Run
import FencedJson.Check.Session
import FencedJson.Check.Summary
import FencedJson.Check.Validation
import FencedJson.Command.Arguments
import FencedJson.Command.Run
import FencedJson.Document
import FencedJson.Entries
import FencedJson.Field.Conversion
import FencedJson.Field.Datum
import FencedJson.Field.Refusal
import FencedJson.Files.Discovery
import FencedJson.Files.Glob
import FencedJson.Files.Path
import FencedJson.Files.Tree
import FencedJson.Files.Wildcard
import FencedJson.Json.Constant
import FencedJson.Json.Double
import FencedJson.Json.Grammar
import FencedJson.Json.Relaxed
import FencedJson.Json.Shortest
import FencedJson.Json.Strict
import FencedJson.Json.Value
import FencedJson.Log
import FencedJson.Main
import FencedJson.Markdown.Block
import FencedJson.Markdown.Definition
import FencedJson.Markdown.Delimiter
import FencedJson.Markdown.Html
import FencedJson.Markdown.Inline
import FencedJson.Markdown.Line
import FencedJson.Markdown.Link
import FencedJson.Proofs.Check.Addresses
import FencedJson.Proofs.Check.Advance
import FencedJson.Proofs.Check.Composition
import FencedJson.Proofs.Check.History
import FencedJson.Proofs.Check.Keys
import FencedJson.Proofs.Check.LineEnds
import FencedJson.Proofs.Check.Located
import FencedJson.Proofs.Check.Markers
import FencedJson.Proofs.Check.NamedOffset
import FencedJson.Proofs.Check.NamedPlace
import FencedJson.Proofs.Check.Naming
import FencedJson.Proofs.Check.Order
import FencedJson.Proofs.Check.Outcome
import FencedJson.Proofs.Check.Places
import FencedJson.Proofs.Check.Pool
import FencedJson.Proofs.Check.Recording
import FencedJson.Proofs.Check.Refusals
import FencedJson.Proofs.Check.Report
import FencedJson.Proofs.Check.Retagging
import FencedJson.Proofs.Check.RoundTrip
import FencedJson.Proofs.Check.Schedules
import FencedJson.Proofs.Check.Session
import FencedJson.Proofs.Check.Stacks
import FencedJson.Proofs.Check.Unexpected
import FencedJson.Proofs.Check.Verdict
import FencedJson.Proofs.Check.Wording
import FencedJson.Proofs.Command.Configuration
import FencedJson.Proofs.Command.Report
import FencedJson.Proofs.Entries
import FencedJson.Proofs.Except
import FencedJson.Proofs.Files.Direct
import FencedJson.Proofs.Files.Discovery
import FencedJson.Proofs.Files.Enumeration
import FencedJson.Proofs.Files.Exclusion
import FencedJson.Proofs.Files.Inclusion
import FencedJson.Proofs.Files.Links
import FencedJson.Proofs.Files.Selection
import FencedJson.Proofs.Files.Wildcard
import FencedJson.Proofs.Json.Agreement
import FencedJson.Proofs.Json.Brackets
import FencedJson.Proofs.Json.Constants
import FencedJson.Proofs.Json.Ensured
import FencedJson.Proofs.Json.Extension
import FencedJson.Proofs.Json.Failure
import FencedJson.Proofs.Json.Loosening
import FencedJson.Proofs.Json.Numerals
import FencedJson.Proofs.Json.Openings
import FencedJson.Proofs.Json.Phrase
import FencedJson.Proofs.Json.Room
import FencedJson.Proofs.Json.Rounding
import FencedJson.Proofs.Json.Stops
import FencedJson.Proofs.Json.Strings
import FencedJson.Proofs.Json.Taking
import FencedJson.Proofs.Json.Viability
import FencedJson.Proofs.Markdown.Alignment
import FencedJson.Proofs.Markdown.Content
import FencedJson.Proofs.Markdown.Extent
import FencedJson.Proofs.Markdown.Fence
import FencedJson.Proofs.Markdown.Lines
import FencedJson.Proofs.Markdown.Passages
import FencedJson.Proofs.Markdown.Quoting
import FencedJson.Proofs.Markdown.Reading
import FencedJson.Proofs.Markdown.Renumbering
import FencedJson.Proofs.Markdown.Taken
import FencedJson.Proofs.Markdown.View
import FencedJson.Proofs.Text.Newline
import FencedJson.Proofs.Text.Utf8
import FencedJson.Proofs.Yaml.Escapes
import FencedJson.Proofs.Yaml.Nesting
import FencedJson.Proofs.Yaml.Values
import FencedJson.Setup.Assignments
import FencedJson.Setup.Config
import FencedJson.Setup.ConfigFile
import FencedJson.Setup.Settings
import FencedJson.Stack
import FencedJson.Text.Base64
import FencedJson.Text.Blank
import FencedJson.Text.Caseless
import FencedJson.Text.Category
import FencedJson.Text.Digits
import FencedJson.Text.Integer
import FencedJson.Text.Newline
import FencedJson.Text.Place
import FencedJson.Text.Printable
import FencedJson.Text.Quoted
import FencedJson.Text.Reading
import FencedJson.Text.Utf8
import FencedJson.Yaml.BlockScalar
import FencedJson.Yaml.Character
import FencedJson.Yaml.Cursor
import FencedJson.Yaml.Lines
import FencedJson.Yaml.Load
import FencedJson.Yaml.Node
import FencedJson.Yaml.Plain
import FencedJson.Yaml.Problem
import FencedJson.Yaml.Quoted
import FencedJson.Yaml.Scalar
import FencedJson.Yaml.Schema
import FencedJson.Yaml.Tag
import FencedJson.Yaml.Timestamp
import FencedJson.Yaml.Token
import FencedJson.Yaml.Tokens
