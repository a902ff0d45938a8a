import HeaderBinding.Assembly.BindingModule
import HeaderBinding.Assembly.ClassGraph
import HeaderBinding.Assembly.Dependency
import HeaderBinding.Assembly.InnerTypes
import HeaderBinding.Assembly.SymbolMap
import HeaderBinding.Assembly.SymbolTable
import HeaderBinding.CommandLine.Arguments
import HeaderBinding.CommandLine.Run
import HeaderBinding.Decimal.Binary64
import HeaderBinding.Decimal.Shortest
import HeaderBinding.Dict
import HeaderBinding.Error
import HeaderBinding.Extraction.Callable
import HeaderBinding.Extraction.ClassBody
import HeaderBinding.Extraction.Declarator
import HeaderBinding.Extraction.HeaderScope
import HeaderBinding.Extraction.Source
import HeaderBinding.Files.FileTree
import HeaderBinding.Json.Basic
import HeaderBinding.Json.Members
import HeaderBinding.Json.Printer
import HeaderBinding.Json.Reader
import HeaderBinding.Main
import HeaderBinding.Path
import HeaderBinding.Record.Basic
import HeaderBinding.Record.Json
import HeaderBinding.Record.Merge
import HeaderBinding.Record.Signature
import HeaderBinding.Session.Basic
import HeaderBinding.Session.Build
import HeaderBinding.Session.Discovery
import HeaderBinding.Session.Location
import HeaderBinding.Session.Reader
import HeaderBinding.Settings.Basic
import HeaderBinding.Settings.Decode
import HeaderBinding.Settings.Environment
import HeaderBinding.Settings.Json
import HeaderBinding.Settings.Store
import HeaderBinding.Settings.Toml
import HeaderBinding.Settings.Value
import HeaderBinding.Syntax.Macros
import HeaderBinding.Syntax.Node
import HeaderBinding.Syntax.Spelling
import HeaderBinding.Text.Blank
import HeaderBinding.Text.CaseTable
import HeaderBinding.Text.Digit
import HeaderBinding.Text.PlainTable
import HeaderBinding.Text.Quoted
import HeaderBinding.Text.Slice
import HeaderBinding.Text.Small
import HeaderBinding.Text.SmallTable
import HeaderBinding.Text.Word
import HeaderBinding.Text.WordTable
import HeaderBinding.Toml.Basic
import HeaderBinding.Toml.Document
import HeaderBinding.Toml.Number
import HeaderBinding.Toml.Reader
import HeaderBinding.Toml.Text
import HeaderBinding.Toml.Writer
import HeaderBinding.Proofs.Assembly.SymbolMap
import HeaderBinding.Proofs.Assembly.Aggregation
import HeaderBinding.Proofs.ClassOrder.Graph
import HeaderBinding.Proofs.ClassOrder.Levels
import HeaderBinding.Proofs.ClassOrder.Sort
import HeaderBinding.Proofs.Qualification.Pass
import HeaderBinding.Proofs.Qualification.Scopes
import HeaderBinding.Proofs.Qualification.Signatures
import HeaderBinding.Proofs.Qualification.Module
import HeaderBinding.Proofs.Assembly.BindingModule
import HeaderBinding.Proofs.Assembly.HeaderOrder
import HeaderBinding.Proofs.ClassOrder.Depth
import HeaderBinding.Proofs.ClassOrder.LevelOrder
import HeaderBinding.Proofs.Assembly.Redeclaration
import HeaderBinding.Proofs.Record.Folding
import HeaderBinding.Proofs.Record.WellFormed
import HeaderBinding.Proofs.Extraction.Tree
import HeaderBinding.Proofs.Extraction.Growth
import HeaderBinding.Proofs.Extraction.ClassBody
import HeaderBinding.Proofs.Extraction.HeaderScope
import HeaderBinding.Proofs.Extraction.Faults
import HeaderBinding.Proofs.Extraction.Filing
import HeaderBinding.Proofs.Extraction.Coherence
import HeaderBinding.Proofs.Extraction.Visibility
import HeaderBinding.Proofs.Extraction.WellFormed
import HeaderBinding.Proofs.Extraction.Members
import HeaderBinding.Proofs.Extraction.Abstract
import HeaderBinding.Proofs.Extraction.Items
import HeaderBinding.Proofs.Extraction.Declarators
import HeaderBinding.Proofs.Extraction.Sources
import HeaderBinding.Proofs.Extraction.Operators
import HeaderBinding.Proofs.Syntax.Spelling
import HeaderBinding.Proofs.Syntax.CanonicalSpelling
import HeaderBinding.Proofs.Extraction.Qualifiers
import HeaderBinding.Proofs.Dict.Merging
import HeaderBinding.Proofs.Record.Grouping
import HeaderBinding.Proofs.Record.Variants
import HeaderBinding.Proofs.Record.RoundTrip
import HeaderBinding.Proofs.Session.Reading
import HeaderBinding.Proofs.Json.Usable
import HeaderBinding.Proofs.Text.Digits
import HeaderBinding.Proofs.Json.Strings
import HeaderBinding.Proofs.Json.Numbers
import HeaderBinding.Proofs.Json.RoundTrip
import HeaderBinding.Proofs.CommandLine.Output
import HeaderBinding.Proofs.CommandLine.Assemble
import HeaderBinding.Proofs.ClassOrder.Cycles
import HeaderBinding.Proofs.ClassOrder.Counters
import HeaderBinding.Proofs.Session.Transcript
import HeaderBinding.Proofs.Assembly.History
import HeaderBinding.Proofs.Assembly.Rejection
import HeaderBinding.Proofs.Record.Extension
import HeaderBinding.Proofs.Qualification.Insertions
import HeaderBinding.Proofs.Qualification.Counting
import HeaderBinding.Proofs.Syntax.Macros
import HeaderBinding.Proofs.Except
import HeaderBinding.Proofs.Text.ByteOrder
import HeaderBinding.Proofs.Assembly.Dependency
import HeaderBinding.Proofs.Files.FileTree
import HeaderBinding.Proofs.Session.Discovery
import HeaderBinding.Proofs.Text.Brackets
import HeaderBinding.Proofs.Record.Overloads
import HeaderBinding.Proofs.Extraction.Functions
import HeaderBinding.Proofs.Extraction.Bases
import HeaderBinding.Proofs.Extraction.InnerClasses
import HeaderBinding.Proofs.Extraction.Lookalikes
import HeaderBinding.Proofs.Extraction.Blocks
import HeaderBinding.Proofs.Extraction.Placement
import HeaderBinding.Proofs.Extraction.Parameters
import HeaderBinding.Proofs.Files.Writing
import HeaderBinding.Proofs.Settings.Layers
import HeaderBinding.Proofs.Settings.Saving
