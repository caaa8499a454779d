import VariantMerge.Agents.Simulation
import VariantMerge.Agents.Slots
import VariantMerge.Agents.State
import VariantMerge.Build
import VariantMerge.Config
import VariantMerge.Config.Document
import VariantMerge.Config.Setting
import VariantMerge.Emit.Conversion
import VariantMerge.Emit.Declaration
import VariantMerge.Emit.Dispatch
import VariantMerge.Expansion
import VariantMerge.Failure
import VariantMerge.Files.FilePath
import VariantMerge.Files.FileTree
import VariantMerge.Generation
import VariantMerge.Grammar.Basic
import VariantMerge.Grammar.Expr
import VariantMerge.Grammar.Item
import VariantMerge.Grammar.Member
import VariantMerge.Grammar.Signature
import VariantMerge.Grammar.Type
import VariantMerge.Hierarchy
import VariantMerge.Import
import VariantMerge.Layout
import VariantMerge.Log
import VariantMerge.Member
import VariantMerge.Merged
import VariantMerge.ModulePath
import VariantMerge.ModuleUnit
import VariantMerge.Scan
import VariantMerge.Source
import VariantMerge.Syntax.Attribute
import VariantMerge.Syntax.Item
import VariantMerge.Syntax.Signature
import VariantMerge.Syntax.Type
import VariantMerge.Text.Blank
import VariantMerge.Text.Case
import VariantMerge.Text.Digit
import VariantMerge.Text.Letter
import VariantMerge.Text.Quoted
import VariantMerge.Text.Reading
import VariantMerge.Text.Visible
import VariantMerge.Token.Basic
import VariantMerge.Token.Lexer
import VariantMerge.Token.Literal
import VariantMerge.Token.Render
import VariantMerge.Toml.Document
import VariantMerge.Toml.Format
import VariantMerge.Toml.Table
import VariantMerge.Variant
import VariantMerge.Writer
import VariantMerge.Yaml.Document
import VariantMerge.Yaml.Format
import VariantMerge.Yaml.Lexeme
import VariantMerge.Yaml.Scalar
import VariantMerge.Yaml.Scan
import VariantMerge.Proofs.Entries
import VariantMerge.Proofs.Layout.Placing
import VariantMerge.Proofs.Layout.SlotName
import VariantMerge.Proofs.Layout.Soundness
import VariantMerge.Proofs.Layout.Count
import VariantMerge.Proofs.Conversion.Meaning
import VariantMerge.Proofs.Generation.Success
import VariantMerge.Proofs.Conversion.RoundTrip
import VariantMerge.Proofs.Dispatch.Equivalence
import VariantMerge.Proofs.Layout.Extension
import VariantMerge.Proofs.Token.Lexeme
import VariantMerge.Proofs.Layout.SharedType
import VariantMerge.Proofs.Generation.Discriminants
import VariantMerge.Proofs.Generation.Attribution
import VariantMerge.Proofs.Scan.Attributes
import VariantMerge.Proofs.Generation.Isolation
import VariantMerge.Proofs.Generation.Rearrangement
import VariantMerge.Proofs.Generation.Modes
import VariantMerge.Proofs.Generation.Indentation
import VariantMerge.Proofs.Import.Anchoring
import VariantMerge.Proofs.Generation.UseContext
import VariantMerge.Proofs.Generation.ImportClashes
import VariantMerge.Proofs.Generation.RelativePaths
import VariantMerge.Proofs.Build.OwnFiles
import VariantMerge.Proofs.Build.Unparsable
import VariantMerge.Proofs.Agents.Cycle
import VariantMerge.Proofs.Expansion.Assembly
import VariantMerge.Proofs.Expansion.Hosting
import VariantMerge.Proofs.Generation.InternalErrors
import VariantMerge.Proofs.Hierarchy.Functions
import VariantMerge.Proofs.Hierarchy.Traversal
import VariantMerge.Proofs.Generation.Wrapping
import VariantMerge.Proofs.Member.Properties
import VariantMerge.Proofs.Member.Parameters
import VariantMerge.Proofs.Member.SelfType
import VariantMerge.Proofs.Member.Borrowing
import VariantMerge.Proofs.Layout.FieldNames
import VariantMerge.Proofs.Emit.Derives
import VariantMerge.Proofs.Config.Validity
import VariantMerge.Proofs.Merged.TypeName
import VariantMerge.Proofs.Merged.RoutineNames
import VariantMerge.Proofs.Generation.DeclaredTypes
import VariantMerge.Proofs.Grammar.TypeText
import VariantMerge.Proofs.Scan.ImportChains
import VariantMerge.Proofs.Generation.Homes
import VariantMerge.Proofs.Expansion.Stripping
import VariantMerge.Proofs.Import.Rereading
import VariantMerge.Proofs.Files.SourceLayout
import VariantMerge.Proofs.Writer.Scopes
import VariantMerge.Proofs.Writer.Blocks
import VariantMerge.Proofs.Text.SnakeCase
import VariantMerge.Proofs.ModulePath.Display
import VariantMerge.Proofs.Writer.EmptyLines
import VariantMerge.Proofs.Layout.RawNames
