import Blueprint.CommandLine
import Blueprint.Config
import Blueprint.Constraint
import Blueprint.Environment
import Blueprint.Error
import Blueprint.Extract.Interface
import Blueprint.Extract.ModuleName
import Blueprint.Extract.Requirements
import Blueprint.Extract.Versions
import Blueprint.FileName
import Blueprint.FileSystem
import Blueprint.Generate
import Blueprint.Glob
import Blueprint.Hcl.BodyParser
import Blueprint.Hcl.Expr
import Blueprint.Hcl.Literal
import Blueprint.Hcl.Parser
import Blueprint.Hcl.Printer
import Blueprint.Hcl.Source
import Blueprint.Hcl.Template
import Blueprint.Json.Accessors
import Blueprint.Json.Decimal
import Blueprint.Json.Parser
import Blueprint.Json.Printer
import Blueprint.Json.Syntax
import Blueprint.Locals
import Blueprint.Main
import Blueprint.Merge
import Blueprint.Metadata
import Blueprint.Metadata.Decode
import Blueprint.Metadata.Document
import Blueprint.Metadata.Encode
import Blueprint.Metadata.File
import Blueprint.Number
import Blueprint.Number.Binary64
import Blueprint.Number.Shortest
import Blueprint.Path
import Blueprint.Program
import Blueprint.Scan
import Blueprint.Shell
import Blueprint.SortedMap
import Blueprint.SourceFile
import Blueprint.State
import Blueprint.StateSource
import Blueprint.Text.Basic
import Blueprint.Text.Escape
import Blueprint.Text.HiddenTable
import Blueprint.Text.Identifier
import Blueprint.Text.IdentifierTable
import Blueprint.Text.Quotation
import Blueprint.Value
import Blueprint.Version
import Blueprint.Yaml.Accessors
import Blueprint.Yaml.Node
import Blueprint.Yaml.Parser
import Blueprint.Yaml.Position
import Blueprint.Yaml.Printer
import Blueprint.Yaml.Scalar
import Blueprint.Yaml.Schema
import Blueprint.Proofs.Results
import Blueprint.Proofs.Interface.Names
import Blueprint.Proofs.Merge
import Blueprint.Proofs.OutputTypes
import Blueprint.Proofs.Regeneration
import Blueprint.Proofs.Locals.Unbounded
import Blueprint.Proofs.Json.Grammar
import Blueprint.Proofs.Metadata.Fields
import Blueprint.Proofs.Metadata.Decode
import Blueprint.Proofs.Metadata.JsonRoundTrip
import Blueprint.Proofs.Interface.Declarations
import Blueprint.Proofs.Interface.Agreement
import Blueprint.Proofs.FileBoundaries
import Blueprint.Proofs.Locals.Agreement
import Blueprint.Proofs.Locals.Truncation
import Blueprint.Proofs.Requirements.Roles
import Blueprint.Proofs.Requirements.Order
import Blueprint.Proofs.Tolerance
import Blueprint.Proofs.Resolution
import Blueprint.Proofs.FileSystem
import Blueprint.Proofs.Effects
import Blueprint.Proofs.Yaml.Plain
import Blueprint.Proofs.Yaml.Quoted
import Blueprint.Proofs.Yaml.Literal
import Blueprint.Proofs.Yaml.Positions
import Blueprint.Proofs.Yaml.Scalars
import Blueprint.Proofs.Yaml.Blocks
import Blueprint.Proofs.Yaml.Flow
import Blueprint.Proofs.Yaml.Atoms
import Blueprint.Proofs.Yaml.Characters
import Blueprint.Proofs.Yaml.Grammar
import Blueprint.Proofs.Yaml.Schema
import Blueprint.Proofs.Yaml.JsonTokens
import Blueprint.Proofs.Yaml.Folding
import Blueprint.Proofs.Yaml.Unfolded
import Blueprint.Proofs.Value.Texts
import Blueprint.Proofs.Yaml.Portable
import Blueprint.Proofs.Yaml.JsonGrammar
import Blueprint.Proofs.Yaml.JsonRefusal
import Blueprint.Proofs.Metadata.YamlRoundTrip
import Blueprint.Proofs.Metadata.Accepted
import Blueprint.Proofs.Metadata.Reread
import Blueprint.Proofs.Metadata.Texts
import Blueprint.Proofs.Metadata.CrossFormat
import Blueprint.Proofs.Metadata.Generated
import Blueprint.Proofs.Readback
import Blueprint.Proofs.ModuleName
import Blueprint.Proofs.Environment.Pieces
import Blueprint.Proofs.Environment.Expansion
import Blueprint.Proofs.Merge.Precedence
import Blueprint.Proofs.Merge.Passes
import Blueprint.Proofs.Locals.Idioms
import Blueprint.Proofs.Places
import Blueprint.Proofs.Versions.Suffix
import Blueprint.Proofs.Versions.Malformed
import Blueprint.Proofs.Requirements.Services
import Blueprint.Proofs.Parentheses
import Blueprint.Proofs.Versions.Numerals
import Blueprint.Proofs.Versions.Constraints
import Blueprint.Proofs.ByteOrder
import Blueprint.Proofs.Actions
import Blueprint.Proofs.Expressions
import Blueprint.Proofs.Arrangement
import Blueprint.Proofs.Scan
import Blueprint.Proofs.Text
import Blueprint.Proofs.SortedMap
import Blueprint.Proofs.State.Inference
import Blueprint.Proofs.State.Layouts
import Blueprint.Proofs.Locals.Selections
import Blueprint.Proofs.Literals
import Blueprint.Proofs.Versions.ModuleVersion
import Blueprint.Proofs.Locals.Following
import Blueprint.Proofs.Locals.NormalForms
