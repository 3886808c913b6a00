import Keyset.Word
import Keyset.Text.Blank
import Keyset.Text.Split
import Keyset.Text.Numeral
import Keyset.Double.Basic
import Keyset.Double.Decimal
import Keyset.Fields
import Keyset.Json.Basic
import Keyset.Json.Printer
import Keyset.Json.Reader
import Keyset.Text.Hex
import Keyset.Text.Base64
import Keyset.Document.Decimal128
import Keyset.Document.Instant
import Keyset.Json.Record
import Keyset.Document.Basic
import Keyset.Document.Extended
import Keyset.Document.Path
import Keyset.Document.Order
import Keyset.Error
import Keyset.Filter
import Keyset.Sorting
import Keyset.Projection
import Keyset.Cursor.Basic
import Keyset.Cursor.Text
import Keyset.Cursor.Seek
import Keyset.Query.Basic
import Keyset.Query.Placeholder
import Keyset.Query.Options
import Keyset.Query.Text
import Keyset.Schema.Table
import Keyset.Schema.Relation
import Keyset.Schema.Catalog
import Keyset.Rows
import Keyset.Columns
import Keyset.Store.Basic
import Keyset.Store.Pipeline
import Keyset.Store.Memory
import Keyset.Connection
import Keyset.Session
import Keyset.Toml.Basic
import Keyset.Toml.Reader
import Keyset.Text.Alphanumeric
import Keyset.Toml.Writer
import Keyset.Environment
import Keyset.Config
import Keyset.CommandLine
import Keyset.Main
import Keyset.Proofs.Double.Decimal
import Keyset.Proofs.Text.Numeral
import Keyset.Proofs.Double.Text
import Keyset.Proofs.Text.Cutting
import Keyset.Proofs.Document.Comparison
import Keyset.Proofs.Cursor.Lookup
import Keyset.Proofs.Sorting
import Keyset.Proofs.Cursor.Values
import Keyset.Proofs.Cursor.Resumption
import Keyset.Proofs.Cursor.Clauses
import Keyset.Proofs.Cursor.RoundTrip
import Keyset.Proofs.Filter
import Keyset.Proofs.Seek
import Keyset.Proofs.Connection.Find
import Keyset.Proofs.Connection.Cursor
import Keyset.Proofs.Connection.Aggregation
import Keyset.Proofs.Connection.Release
import Keyset.Proofs.Cursor.Issued
import Keyset.Proofs.Cursor.Own
import Keyset.Proofs.Projection
import Keyset.Proofs.Paging
import Keyset.Proofs.Resuming
import Keyset.Proofs.Json.Leaves
import Keyset.Proofs.Schema.Catalog
import Keyset.Proofs.Query.Placeholder
import Keyset.Proofs.Json.Fits
import Keyset.Proofs.Json.Number
import Keyset.Proofs.Json.Text
import Keyset.Proofs.Connection.Pages
import Keyset.Proofs.Query.Text
import Keyset.Proofs.Rows
import Keyset.Proofs.Query.Options
import Keyset.Proofs.Columns
import Keyset.Proofs.Connection.Introspection
import Keyset.Proofs.Filter.Meaning
import Keyset.Proofs.Sorting.Stable
import Keyset.Proofs.Double.Monotone
import Keyset.Proofs.Document.Integers
import Keyset.Proofs.Document.Equality
import Keyset.Proofs.Connection.Splice
import Keyset.Proofs.Text.Spelling
import Keyset.Proofs.Double.Literal
import Keyset.Proofs.Cursor.Grammar
import Keyset.Proofs.Cursor.Lead
import Keyset.Proofs.Document.Wrappers
import Keyset.Proofs.Store.Seed
import Keyset.Proofs.Store.Names
import Keyset.Proofs.FirstPlaces
import Keyset.Proofs.Columns.Summary
import Keyset.Proofs.Columns.Inference
import Keyset.Proofs.Columns.Widening
import Keyset.Proofs.Connection.Single
import Keyset.Proofs.Query.Validity
import Keyset.Proofs.Query.Early
import Keyset.Proofs.Query.Classification
import Keyset.Proofs.Cursor.Information
import Keyset.Proofs.Schema.Incidence
import Keyset.Proofs.Projection.Flags
import Keyset.Proofs.Store.History
import Keyset.Proofs.Filter.Inclusive
import Keyset.Proofs.Schema.Display
import Keyset.Proofs.Document.Paths
import Keyset.Proofs.Environment
import Keyset.Proofs.Config.Layers
import Keyset.Proofs.Toml.Text
import Keyset.Proofs.Toml.Document
import Keyset.Proofs.Config.Saving
import Keyset.Proofs.Session
