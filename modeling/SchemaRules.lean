import SchemaRules.Command.Basic
import SchemaRules.Command.Line
import SchemaRules.Compilation.Basic
import SchemaRules.Compilation.OfRules
import SchemaRules.Compilation.Trial
import SchemaRules.Config.Basic
import SchemaRules.Config.Load
import SchemaRules.Config.OfYaml
import SchemaRules.Decimal.Exact
import SchemaRules.Decimal.Layout
import SchemaRules.Decimal.Reader
import SchemaRules.Decimal.Shortest
import SchemaRules.Declaration.Basic
import SchemaRules.Declaration.Convert
import SchemaRules.Declaration.OfSchema
import SchemaRules.Declaration.Sample
import SchemaRules.Document.Basic
import SchemaRules.Document.Load
import SchemaRules.Environment
import SchemaRules.Evaluation
import SchemaRules.Expr.Basic
import SchemaRules.Expr.Eval
import SchemaRules.Expr.Literal
import SchemaRules.Expr.Parser
import SchemaRules.Expr.Token
import SchemaRules.Fields
import SchemaRules.Files
import SchemaRules.Function.Call
import SchemaRules.Function.Collections
import SchemaRules.Function.Conversions
import SchemaRules.Function.Table
import SchemaRules.Function.Texts
import SchemaRules.Identifier
import SchemaRules.Json.Basic
import SchemaRules.Json.Cursor
import SchemaRules.Json.Equal
import SchemaRules.Json.Mismatch
import SchemaRules.Json.Printer
import SchemaRules.Json.Reader
import SchemaRules.Json.Skim
import SchemaRules.Main
import SchemaRules.Pattern.Basic
import SchemaRules.Pattern.Parser
import SchemaRules.Proofs.Acceptance
import SchemaRules.Proofs.Bits
import SchemaRules.Proofs.Canonical
import SchemaRules.Proofs.Checks
import SchemaRules.Proofs.Comparison
import SchemaRules.Proofs.Compilation
import SchemaRules.Proofs.Conformance
import SchemaRules.Proofs.Conservation
import SchemaRules.Proofs.Contexts
import SchemaRules.Proofs.Conversions
import SchemaRules.Proofs.Cuts
import SchemaRules.Proofs.Decimals
import SchemaRules.Proofs.Declarations
import SchemaRules.Proofs.Dependence
import SchemaRules.Proofs.Doubles
import SchemaRules.Proofs.Independence
import SchemaRules.Proofs.KeyTexts
import SchemaRules.Proofs.Layouts
import SchemaRules.Proofs.Lookups
import SchemaRules.Proofs.Mappings
import SchemaRules.Proofs.Marks
import SchemaRules.Proofs.Names
import SchemaRules.Proofs.Nodes
import SchemaRules.Proofs.Occurrences
import SchemaRules.Proofs.Paths
import SchemaRules.Proofs.Places
import SchemaRules.Proofs.Positions
import SchemaRules.Proofs.Pruning
import SchemaRules.Proofs.Readings
import SchemaRules.Proofs.Reads
import SchemaRules.Proofs.References
import SchemaRules.Proofs.Refusals
import SchemaRules.Proofs.Reruns
import SchemaRules.Proofs.RoundTrip
import SchemaRules.Proofs.RuleLists
import SchemaRules.Proofs.RuleTexts
import SchemaRules.Proofs.SampleValues
import SchemaRules.Proofs.Samples
import SchemaRules.Proofs.Seeds
import SchemaRules.Proofs.Selection
import SchemaRules.Proofs.Settings
import SchemaRules.Proofs.Shorthands
import SchemaRules.Proofs.Skeletons
import SchemaRules.Proofs.SoundSchemas
import SchemaRules.Proofs.Symbols
import SchemaRules.Proofs.Trials
import SchemaRules.Proofs.Validity
import SchemaRules.Proofs.Variables
import SchemaRules.Proofs.Verdicts
import SchemaRules.Proofs.Ways
import SchemaRules.Proofs.Widening
import SchemaRules.Rule.Basic
import SchemaRules.Rule.Reader
import SchemaRules.RuleTree
import SchemaRules.Schema.Basic
import SchemaRules.Schema.OfYaml
import SchemaRules.Schema.Reader
import SchemaRules.Schema.Rules
import SchemaRules.Structure.Check
import SchemaRules.Structure.OfJson
import SchemaRules.Structure.References
import SchemaRules.Structure.Skeleton
import SchemaRules.Structure.Validator
import SchemaRules.Structure.Violation
import SchemaRules.Structure.WellFormed
import SchemaRules.Text.Base64
import SchemaRules.Text.Blank
import SchemaRules.Text.Bytes
import SchemaRules.Text.Folding
import SchemaRules.Text.Printable
import SchemaRules.Text.Quoted
import SchemaRules.Text.Ranges
import SchemaRules.Text.Search
import SchemaRules.Text.Word
import SchemaRules.Time.Calendar
import SchemaRules.Time.Instant
import SchemaRules.Time.Span
import SchemaRules.Value.Basic
import SchemaRules.Value.Compare
import SchemaRules.Value.Fault
import SchemaRules.Value.Inspect
import SchemaRules.Value.Operators
import SchemaRules.Value.Seed
import SchemaRules.Yaml.Cursor
import SchemaRules.Yaml.Node
import SchemaRules.Yaml.Resolve
import SchemaRules.Yaml.Scalar.Block
import SchemaRules.Yaml.Scalar.Plain
import SchemaRules.Yaml.Scalar.Quotation
import SchemaRules.Yaml.Token.Basic
import SchemaRules.Yaml.Token.Scan
import SchemaRules.Yaml.Token.Tag
import SchemaRules.Yaml.Tree.Basic
import SchemaRules.Yaml.Tree.OfTokens
import SchemaRules.Yaml.Typed
import SchemaRules.Yaml.Value
