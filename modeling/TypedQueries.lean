import TypedQueries.Text.Basic
import TypedQueries.Text.Blank
import TypedQueries.Text.Digit
import TypedQueries.Text.Identifier
import TypedQueries.Text.Printable
import TypedQueries.Text.Alphanumeric
import TypedQueries.Text.LowerCase
import TypedQueries.Text.CaseVariant
import TypedQueries.Directive
import TypedQueries.Template
import TypedQueries.TypeObject
import TypedQueries.ParamSet.Builder
import TypedQueries.Text.Quoted
import TypedQueries.Text.CodePoint
import TypedQueries.Companion.Emission
import TypedQueries.Query.PlaceholderStyle
import TypedQueries.Query.Interpolation
import TypedQueries.Query.Marker
import TypedQueries.Source.Token
import TypedQueries.Source.Number
import TypedQueries.Found
import TypedQueries.Source.Release
import TypedQueries.Source.Literal
import TypedQueries.Source.Formatted
import TypedQueries.Source.Scan
import TypedQueries.Source.Expr.Basic
import TypedQueries.Source.Expr.Operator
import TypedQueries.Source.Expr.Read
import TypedQueries.Source.Case
import TypedQueries.Source.Statement.Basic
import TypedQueries.Source.Statement.Simple
import TypedQueries.Source.Statement.Read
import TypedQueries.Text.Utf8
import TypedQueries.FileTree.Path
import TypedQueries.FileTree.Basic
import TypedQueries.Source.Encoding
import TypedQueries.Source.Plain
import TypedQueries.Table
import TypedQueries.Value.Double
import TypedQueries.Text.Integer
import TypedQueries.Value.Moment
import TypedQueries.Value.Basic
import TypedQueries.Value.Reader
import TypedQueries.Package.ModuleName
import TypedQueries.Package.DefinitionIndex
import TypedQueries.Package.Basic
import TypedQueries.Package.Folding
import TypedQueries.Package.Lookup
import TypedQueries.NamePattern.Matcher
import TypedQueries.NamePattern.Read
import TypedQueries.Settings.Basic
import TypedQueries.Diagnostic
import TypedQueries.LogEntry
import TypedQueries.Companion.Name
import TypedQueries.Companion.Preamble
import TypedQueries.Companion.Plan
import TypedQueries.Companion.Sync
import TypedQueries.Package.Load
import TypedQueries.Package.Analysis
import TypedQueries.ErrorKind
import TypedQueries.Yaml.Mark
import TypedQueries.Yaml.Fault
import TypedQueries.Yaml.Plain
import TypedQueries.Yaml.Quoted
import TypedQueries.Yaml.Block
import TypedQueries.Yaml.Token
import TypedQueries.Yaml.Scan
import TypedQueries.Yaml.Node
import TypedQueries.Yaml.Kind
import TypedQueries.Yaml.Document
import TypedQueries.Settings.Read
import TypedQueries.Generation.Selection
import TypedQueries.Generation.Package
import TypedQueries.Generation.Basic
import TypedQueries.Value.Json
import TypedQueries.Problem
import TypedQueries.Generation.Setup
import TypedQueries.CommandLine.Arguments
import TypedQueries.CommandLine.Basic
import TypedQueries.Proofs.Cutting
import TypedQueries.Proofs.Gathering
import TypedQueries.Proofs.Occurrences
import TypedQueries.Proofs.Rendering
import TypedQueries.Proofs.Tables
import TypedQueries.Proofs.Indexing
import TypedQueries.Proofs.References
import TypedQueries.Proofs.Evaluation
import TypedQueries.Proofs.Planning
import TypedQueries.Proofs.Characters
import TypedQueries.Proofs.Applying
import TypedQueries.Proofs.Convergence
import TypedQueries.Proofs.Naming
import TypedQueries.Proofs.Footprint
import TypedQueries.Proofs.LineFeeds
import TypedQueries.Proofs.Decoding
import TypedQueries.Proofs.Lexemes
import TypedQueries.Proofs.Importing
import TypedQueries.Proofs.Scanning
import TypedQueries.Proofs.Emitting
import TypedQueries.Proofs.RoundTrip
import TypedQueries.Proofs.Rewriting
import TypedQueries.Proofs.Faults
import TypedQueries.Proofs.Locality
import TypedQueries.Proofs.Outcomes
import TypedQueries.Proofs.Completion
import TypedQueries.Proofs.Selecting
import TypedQueries.Proofs.Frames
import TypedQueries.Proofs.Independence
import TypedQueries.Proofs.Collecting
import TypedQueries.Proofs.Building
import TypedQueries.Proofs.Forms
import TypedQueries.Proofs.Matching
import TypedQueries.Proofs.Rebinding
import TypedQueries.Proofs.Cycles
import TypedQueries.Proofs.Resolution
import TypedQueries.Proofs.Isolation
import TypedQueries.Proofs.Quoting
import TypedQueries.Proofs.SourceLines
import TypedQueries.Proofs.Preambles
import TypedQueries.Proofs.Unambiguity
import TypedQueries.Proofs.Consumption
import TypedQueries.Proofs.Extents
import TypedQueries.Proofs.Placement
import TypedQueries.Proofs.DecodedLines
import TypedQueries.Proofs.Keeping
import TypedQueries.Proofs.Collisions
import TypedQueries.Proofs.ModuleNames
import TypedQueries.Proofs.Loading
import TypedQueries.Proofs.Members
import TypedQueries.Proofs.Constancy
import TypedQueries.Proofs.RelativeImports
import TypedQueries.Proofs.Siblings
import TypedQueries.Proofs.SettingsFiles
import TypedQueries.Proofs.ArgumentOrder
