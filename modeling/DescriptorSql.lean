import DescriptorSql.Binding.Bind
import DescriptorSql.Binding.Run
import DescriptorSql.Binding.Slot
import DescriptorSql.CharClass.Alphabetic
import DescriptorSql.CharClass.Connector
import DescriptorSql.CharClass.Mark
import DescriptorSql.CharClass.Number
import DescriptorSql.CharClass.Ranges
import DescriptorSql.CharClass.Uppercase
import DescriptorSql.CharClass.Word
import DescriptorSql.CommandLine.Arguments
import DescriptorSql.CommandLine.Configuration
import DescriptorSql.CommandLine.FileTree
import DescriptorSql.CommandLine.Run
import DescriptorSql.Compile.Columns
import DescriptorSql.Compile.Condition
import DescriptorSql.Compile.Overlay
import DescriptorSql.Compile.Select
import DescriptorSql.Descriptor.Builder
import DescriptorSql.Descriptor.Error
import DescriptorSql.Descriptor.Operator
import DescriptorSql.Descriptor.Query
import DescriptorSql.Descriptor.QueryForm
import DescriptorSql.Descriptor.Record
import DescriptorSql.Descriptor.Relation
import DescriptorSql.Descriptor.RelationForm
import DescriptorSql.Entries
import DescriptorSql.Json.Basic
import DescriptorSql.Json.Lexeme
import DescriptorSql.Json.Printer
import DescriptorSql.Json.Reader
import DescriptorSql.Main
import DescriptorSql.Number.Binary64
import DescriptorSql.Number.Decimal
import DescriptorSql.Number.Shortest
import DescriptorSql.Proofs.Binding.Lift
import DescriptorSql.Proofs.Binding.Mention
import DescriptorSql.Proofs.Binding.Piece
import DescriptorSql.Proofs.Binding.Positional
import DescriptorSql.Proofs.Binding.Replacement
import DescriptorSql.Proofs.Binding.Template
import DescriptorSql.Proofs.Binding.Wrapped
import DescriptorSql.Proofs.Compile.Agreement
import DescriptorSql.Proofs.Compile.Alike
import DescriptorSql.Proofs.Compile.AlikeSelect
import DescriptorSql.Proofs.Compile.Correlation
import DescriptorSql.Proofs.Compile.Shown
import DescriptorSql.Proofs.Descriptor.Named
import DescriptorSql.Proofs.Descriptor.Plain
import DescriptorSql.Proofs.Descriptor.Reference
import DescriptorSql.Proofs.Descriptor.Related
import DescriptorSql.Proofs.Descriptor.Traversal
import DescriptorSql.Proofs.Lexical.AtSign
import DescriptorSql.Proofs.Lexical.Clauses
import DescriptorSql.Proofs.Lexical.Concat
import DescriptorSql.Proofs.Lexical.Grade
import DescriptorSql.Proofs.Lexical.Item
import DescriptorSql.Proofs.Lexical.Literal
import DescriptorSql.Proofs.Lexical.Name
import DescriptorSql.Proofs.Lexical.PassThrough
import DescriptorSql.Proofs.Lexical.Value
import DescriptorSql.Proofs.Lexical.Word
import DescriptorSql.Proofs.Reading.Atom
import DescriptorSql.Proofs.Reading.Condition
import DescriptorSql.Proofs.Reading.Filter
import DescriptorSql.Proofs.Reading.Formula
import DescriptorSql.Proofs.Reading.Meaning
import DescriptorSql.Proofs.Reading.Predicate
import DescriptorSql.Proofs.Statement.Correlation
import DescriptorSql.Proofs.Statement.Data
import DescriptorSql.Proofs.Statement.Written
import DescriptorSql.Settings
import DescriptorSql.Sql.Clauses
import DescriptorSql.Sql.Identifier
import DescriptorSql.Sql.Insert
import DescriptorSql.Sql.Link
import DescriptorSql.Sql.Literal
import DescriptorSql.Sql.Placeholder
import DescriptorSql.Sql.Qualified
import DescriptorSql.Sql.Raw
import DescriptorSql.Sql.Token
import DescriptorSql.Sql.Update
import DescriptorSql.Statement.Operation
import DescriptorSql.Statement.Params
import DescriptorSql.Statement.ParamsForm
import DescriptorSql.Text.Blank
import DescriptorSql.Text.Quoted
import DescriptorSql.Toml.Document
import DescriptorSql.Toml.Lexeme
import DescriptorSql.Toml.Reader
import DescriptorSql.Toml.Scalar
import DescriptorSql.Proofs.Binding.Phrase
import DescriptorSql.Proofs.Compile.Carries
import DescriptorSql.Proofs.Compile.Numbered
import DescriptorSql.Proofs.Compile.NumberedSelect
import DescriptorSql.Proofs.Statement.Numbered
import DescriptorSql.Proofs.Statement.Bound
import DescriptorSql.Proofs.Lexical.Denotation
import DescriptorSql.Proofs.Number.Range
import DescriptorSql.Proofs.Lexical.Numeral
import DescriptorSql.Proofs.Lexical.Path
import DescriptorSql.Proofs.Descriptor.Faithful
import DescriptorSql.Proofs.Descriptor.Grammar
import DescriptorSql.Proofs.Descriptor.Items
import DescriptorSql.Proofs.Descriptor.Records
import DescriptorSql.Proofs.Descriptor.Parsing
import DescriptorSql.Proofs.Compile.Sequence
import DescriptorSql.Proofs.Descriptor.Parts
import DescriptorSql.Proofs.Compile.Failure
import DescriptorSql.Proofs.Compile.Lookup
import DescriptorSql.Proofs.Statement.Lookup
import DescriptorSql.Proofs.Compile.Emptiness
import DescriptorSql.Proofs.Statement.Restriction
import DescriptorSql.Proofs.Lexical.Balance
import DescriptorSql.Proofs.Statement.Balance
import DescriptorSql.Proofs.Binding.Seam
import DescriptorSql.Proofs.CommandLine.Terminator
import DescriptorSql.Proofs.Descriptor.Places
import DescriptorSql.Proofs.Lexical.Provenance
import DescriptorSql.Proofs.Compile.Composed
import DescriptorSql.Proofs.Compile.Provenance
import DescriptorSql.Proofs.Statement.Provenance
import DescriptorSql.Proofs.Statement.Marker
import DescriptorSql.Proofs.Descriptor.Nesting
import DescriptorSql.Proofs.Compile.Fuel
import DescriptorSql.Proofs.Compile.Termination
import DescriptorSql.Proofs.Lexical.Operand
import DescriptorSql.Proofs.Compile.Grammatical
import DescriptorSql.Proofs.Descriptor.Writes
import DescriptorSql.Proofs.Compile.Expansion
import DescriptorSql.Proofs.Compile.Rows
import DescriptorSql.Proofs.Reading.Insert
import DescriptorSql.Proofs.Statement.Tuples
import DescriptorSql.Proofs.Reading.Terms
import DescriptorSql.Proofs.Statement.Filters
import DescriptorSql.Proofs.Binding.Renumbering
import DescriptorSql.Proofs.Binding.Midword
import DescriptorSql.Proofs.Lexical.Column
import DescriptorSql.Proofs.Compile.Connectives
import DescriptorSql.Proofs.Compile.Pruning
import DescriptorSql.Proofs.Statement.Assembly
import DescriptorSql.Proofs.Descriptor.Layers
import DescriptorSql.Proofs.Descriptor.Keys
import DescriptorSql.Proofs.Descriptor.Building
import DescriptorSql.Proofs.CommandLine.Catalog
import DescriptorSql.Proofs.CommandLine.Validation
import DescriptorSql.Proofs.Statement.Demand
import DescriptorSql.Proofs.Reading.Join
