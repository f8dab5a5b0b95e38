import ModelContracts.Annotation.Converter
import ModelContracts.Annotation.Rule
import ModelContracts.Annotation.RuleBook
import ModelContracts.Build.Artifact
import ModelContracts.Build.Builder
import ModelContracts.Build.Cache
import ModelContracts.Build.Compilation
import ModelContracts.Build.Flight
import ModelContracts.Build.Loading
import ModelContracts.Build.Session
import ModelContracts.Build.Statement
import ModelContracts.Build.Workspace
import ModelContracts.ClassId
import ModelContracts.Command.Arguments
import ModelContracts.Command.Run
import ModelContracts.Command.Target
import ModelContracts.Config.Environment
import ModelContracts.Config.File
import ModelContracts.Config.Layers
import ModelContracts.Config.Merge
import ModelContracts.Config.Settings
import ModelContracts.Console.Markup
import ModelContracts.Console.Notice
import ModelContracts.Console.Table
import ModelContracts.Console.Wrap
import ModelContracts.Contract.Basic
import ModelContracts.Contract.Extension
import ModelContracts.Contract.Identity
import ModelContracts.Contract.Source
import ModelContracts.Contract.Stamp
import ModelContracts.Contract.Synthesis
import ModelContracts.Document.Cursor
import ModelContracts.Document.Mark
import ModelContracts.Document.Meaning
import ModelContracts.Document.Node
import ModelContracts.Document.Scalar
import ModelContracts.Document.Scanner
import ModelContracts.Document.Tag
import ModelContracts.Document.Token
import ModelContracts.Emission.Basic
import ModelContracts.Emission.Literal
import ModelContracts.File.Head
import ModelContracts.File.Path
import ModelContracts.File.Tree
import ModelContracts.Log
import ModelContracts.Logging
import ModelContracts.Main
import ModelContracts.Marker.Basic
import ModelContracts.Marker.Shape
import ModelContracts.Number.Binary64
import ModelContracts.Number.Decimal
import ModelContracts.Number.FloatText
import ModelContracts.Number.Rounding
import ModelContracts.Number.Shortest
import ModelContracts.Proofs.Build.Compiling
import ModelContracts.Proofs.Build.Failing
import ModelContracts.Proofs.Build.Making
import ModelContracts.Proofs.Build.Provenance
import ModelContracts.Proofs.Build.Registering
import ModelContracts.Proofs.Flight.Sharing
import ModelContracts.Proofs.Reflection
import ModelContracts.Proofs.Running
import ModelContracts.Proofs.Source.Binding
import ModelContracts.Proofs.Synthesis.Closure
import ModelContracts.Proofs.Synthesis.Depth
import ModelContracts.Proofs.Synthesis.Failure
import ModelContracts.Proofs.Synthesis.Filling
import ModelContracts.Proofs.Synthesis.Naming
import ModelContracts.Proofs.Synthesis.Opening
import ModelContracts.Proofs.Synthesis.Uniqueness
import ModelContracts.Property.Annotation
import ModelContracts.Property.Descriptor
import ModelContracts.Property.Eligibility
import ModelContracts.Property.Filter
import ModelContracts.Property.Reflection
import ModelContracts.Reference.Ledger
import ModelContracts.Reference.Rendering
import ModelContracts.Text.Base64
import ModelContracts.Text.Blank
import ModelContracts.Text.CharSet
import ModelContracts.Text.Hex
import ModelContracts.Text.Identifier
import ModelContracts.Text.Pieces
import ModelContracts.Text.Printable
import ModelContracts.Text.Quoted
import ModelContracts.Text.Spelled
import ModelContracts.Text.Utf8
import ModelContracts.Text.Width
import ModelContracts.Text.Word
import ModelContracts.TypeExpr.Basic
import ModelContracts.TypeExpr.Entries
import ModelContracts.TypeExpr.Equality
import ModelContracts.TypeExpr.Form
import ModelContracts.TypeExpr.Layer
import ModelContracts.TypeExpr.Memory
import ModelContracts.TypeExpr.Spelled
import ModelContracts.World.Basic
import ModelContracts.World.Declaration
import ModelContracts.World.Enumeration
import ModelContracts.World.Import
import ModelContracts.World.Lineage
import ModelContracts.World.Nature
import ModelContracts.World.Standard
import ModelContracts.World.StandardModules
import ModelContracts.Proofs.Text.Decoding
import ModelContracts.Proofs.Source.Stamped
import ModelContracts.Proofs.Build.Touching
import ModelContracts.Proofs.Execution.Renumbering
import ModelContracts.Proofs.Execution.Stumbling
import ModelContracts.Proofs.Execution.Twins
import ModelContracts.Proofs.Execution.Numbers
import ModelContracts.Proofs.Build.Rebuilding
import ModelContracts.Proofs.Reference.Naming
import ModelContracts.Proofs.Reference.Phrases
import ModelContracts.Proofs.Reference.Annotations
import ModelContracts.Proofs.Synthesis.Indistinct
import ModelContracts.Proofs.Synthesis.Wording
import ModelContracts.Proofs.Build.Recompiling
import ModelContracts.Proofs.Source.Reading
import ModelContracts.Proofs.Reference.Importing
import ModelContracts.Proofs.Source.Scope
import ModelContracts.Proofs.Build.Identifying
import ModelContracts.Proofs.Build.Referring
import ModelContracts.Proofs.Build.Planning
import ModelContracts.Proofs.Expression.Meaning
import ModelContracts.Proofs.Expression.Rereading
import ModelContracts.Proofs.Build.Cleaning
import ModelContracts.Proofs.Build.Answering
import ModelContracts.Proofs.Build.Respelling
import ModelContracts.Proofs.TypeExpr.Nature
import ModelContracts.Proofs.Property.Declaration
import ModelContracts.Proofs.Synthesis.Forest
import ModelContracts.Proofs.Execution.Declaring
import ModelContracts.Proofs.Source.Basing
import ModelContracts.Proofs.Source.Listing
import ModelContracts.Proofs.Command.Listing
import ModelContracts.Proofs.Command.Relisting
import ModelContracts.Proofs.Command.Inspecting
import ModelContracts.Proofs.Text.Quoting
import ModelContracts.Proofs.Synthesis.Blaming
import ModelContracts.Proofs.Synthesis.Visiting
import ModelContracts.Proofs.Property.ClassVariable
import ModelContracts.Proofs.Build.Refusal
import ModelContracts.Proofs.Number.Rereading
import ModelContracts.Proofs.Literal.Rereading
import ModelContracts.Proofs.Annotation.Translating
import ModelContracts.Proofs.Annotation.Converting
import ModelContracts.Proofs.Annotation.Shelving
import ModelContracts.Proofs.Source.Version
import ModelContracts.Proofs.Reference.Repeating
import ModelContracts.Proofs.Reference.Covering
import ModelContracts.Proofs.Reference.Aliasing
import ModelContracts.Proofs.Reference.Ordering
import ModelContracts.Proofs.Build.Remembering
import ModelContracts.Proofs.Source.ClassText
import ModelContracts.Proofs.Source.Body
import ModelContracts.Proofs.Extension.History
import ModelContracts.Proofs.Config.Reporting
import ModelContracts.Proofs.Command.Targeting
import ModelContracts.Proofs.Config.Precedence
import ModelContracts.Proofs.Property.Eligibility
import ModelContracts.Proofs.Build.Naming
