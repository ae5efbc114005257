import SchemaArchive.Archive.Basic
import SchemaArchive.Archive.Delete
import SchemaArchive.Archive.Exchange
import SchemaArchive.Archive.Load
import SchemaArchive.Archive.Log
import SchemaArchive.Archive.Operation
import SchemaArchive.Archive.Relation
import SchemaArchive.Archive.Saved
import SchemaArchive.Archive.Store
import SchemaArchive.Archive.StoreError
import SchemaArchive.Archive.Version
import SchemaArchive.CommandLine.Arguments
import SchemaArchive.CommandLine.Description
import SchemaArchive.CommandLine.Help
import SchemaArchive.CommandLine.Run
import SchemaArchive.Json.Printer
import SchemaArchive.Json.Reader
import SchemaArchive.Json.Value
import SchemaArchive.Main
import SchemaArchive.Schema.Constraint
import SchemaArchive.Schema.Exchange
import SchemaArchive.Schema.Table
import SchemaArchive.Script.ColumnDefinition
import SchemaArchive.Script.ColumnList
import SchemaArchive.Script.Exchange
import SchemaArchive.Script.ParseError
import SchemaArchive.Script.Parser
import SchemaArchive.Script.Render
import SchemaArchive.Script.Scanner
import SchemaArchive.Script.Statement
import SchemaArchive.Script.TableItem
import SchemaArchive.Script.Token
import SchemaArchive.Settings
import SchemaArchive.Text.Blank
import SchemaArchive.Text.CodeRange
import SchemaArchive.Text.Combining
import SchemaArchive.Text.Decimal
import SchemaArchive.Text.Hexadecimal
import SchemaArchive.Text.Letter
import SchemaArchive.Text.Numeral
import SchemaArchive.Text.Percent
import SchemaArchive.Text.Printable
import SchemaArchive.Text.Quoted
import SchemaArchive.Text.UpperCase
import SchemaArchive.Text.Utf8
import SchemaArchive.Text.Visible
import SchemaArchive.Text.Wrapped
import SchemaArchive.Workspace.Address
import SchemaArchive.Workspace.Basic
import SchemaArchive.Workspace.Location
import SchemaArchive.Workspace.OpenError
import SchemaArchive.Workspace.Opening
import SchemaArchive.Workspace.Path
import SchemaArchive.Proofs.Script.Grammar
import SchemaArchive.Proofs.Script.Steps
import SchemaArchive.Proofs.Script.Reading
import SchemaArchive.Proofs.Script.Declared
import SchemaArchive.Proofs.Script.WellFormedScript
import SchemaArchive.Proofs.Script.Lexemes
import SchemaArchive.Proofs.Script.Spelling
import SchemaArchive.Proofs.Script.RenderedItems
import SchemaArchive.Proofs.Script.RenderedScript
import SchemaArchive.Proofs.Script.RoundTrip
import SchemaArchive.Proofs.Script.KeysLast
import SchemaArchive.Proofs.Script.Promptness
import SchemaArchive.Proofs.Script.PassingOver
import SchemaArchive.Proofs.Script.EarliestError
import SchemaArchive.Proofs.Script.Places
import SchemaArchive.Proofs.Script.Concatenation
import SchemaArchive.Proofs.Script.Decomposition
import SchemaArchive.Proofs.Script.Adjacent
import SchemaArchive.Proofs.Script.Taken
import SchemaArchive.Proofs.Text.UpperCase
import SchemaArchive.Proofs.Script.ReadAgain
import SchemaArchive.Proofs.Archive.Numbering
import SchemaArchive.Proofs.Archive.Layout
import SchemaArchive.Proofs.Archive.Writing
import SchemaArchive.Proofs.Archive.Intact
import SchemaArchive.Proofs.Archive.Order
import SchemaArchive.Proofs.Archive.Separation
import SchemaArchive.Proofs.Archive.Tree
import SchemaArchive.Proofs.Archive.Admission
import SchemaArchive.Proofs.Archive.Transcript
import SchemaArchive.Proofs.Archive.Storing
import SchemaArchive.Proofs.Archive.Rollback
import SchemaArchive.Proofs.Archive.Loading
import SchemaArchive.Proofs.Archive.Isolation
import SchemaArchive.Proofs.Archive.Immutability
import SchemaArchive.Proofs.Archive.WellFormed
import SchemaArchive.Proofs.Archive.Pairing
import SchemaArchive.Proofs.Archive.DistinctNumbers
import SchemaArchive.Proofs.Archive.Reimport
import SchemaArchive.Proofs.Archive.Consecutive
import SchemaArchive.Proofs.Archive.Registry
import SchemaArchive.Proofs.Archive.Refusal
import SchemaArchive.Proofs.Script.LetterCase
import SchemaArchive.Proofs.Archive.Rules
import SchemaArchive.Proofs.Workspace.Kept
import SchemaArchive.Proofs.Script.GeneratedNames
import SchemaArchive.Proofs.Script.Provenance
import SchemaArchive.Proofs.Script.TypeText
import SchemaArchive.Proofs.Json.Writing
import SchemaArchive.Proofs.Json.RoundTrip
import SchemaArchive.Proofs.Schema.JsonText
import SchemaArchive.Proofs.Archive.JsonText
import SchemaArchive.Proofs.CommandLine.Printing
import SchemaArchive.Proofs.CommandLine.Session
import SchemaArchive.Proofs.Script.Nesting
import SchemaArchive.Proofs.Text.Decimal
import SchemaArchive.Proofs.Settings
import SchemaArchive.Proofs.Script.Pulling
import SchemaArchive.Proofs.Script.Progress
