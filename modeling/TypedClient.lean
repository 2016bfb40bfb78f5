import TypedClient.Braces
import TypedClient.Builder
import TypedClient.Client
import TypedClient.Command
import TypedClient.CommandLine
import TypedClient.Comment
import TypedClient.Config
import TypedClient.Decimal.Double
import TypedClient.Decimal.Shortest
import TypedClient.Declaration
import TypedClient.Document
import TypedClient.Fault
import TypedClient.FileTree
import TypedClient.Generator
import TypedClient.Json.Basic
import TypedClient.Json.Display
import TypedClient.Json.Inherent
import TypedClient.Json.Printer
import TypedClient.Json.Reader
import TypedClient.Log
import TypedClient.Main
import TypedClient.Message
import TypedClient.Module
import TypedClient.Name
import TypedClient.NameGraph
import TypedClient.Operation
import TypedClient.OutputKind
import TypedClient.Path
import TypedClient.Pointer
import TypedClient.Proofs.Builder.Growth
import TypedClient.Proofs.Client.Names
import TypedClient.Proofs.Module.Assembly
import TypedClient.Proofs.Module.Partition
import TypedClient.Proofs.Module.Sharing
import TypedClient.Proofs.Name.Nonempty
import TypedClient.Proofs.NameGraph.Closure
import TypedClient.Proofs.NameGraph.Order
import TypedClient.Proofs.Render.Plain
import TypedClient.Proofs.Render.Schema
import TypedClient.Proofs.Session.Outcome
import TypedClient.Proofs.Store.Emission
import TypedClient.Proofs.Store.Errors
import TypedClient.Proofs.Store.Growth
import TypedClient.Proofs.Store.History
import TypedClient.Proofs.Store.Names
import TypedClient.Proofs.Store.Order
import TypedClient.Proofs.Store.Selection
import TypedClient.Proofs.Store.Sound
import TypedClient.Proofs.TypeExpr.Fit
import TypedClient.Proofs.Walk.Operations
import TypedClient.Proofs.Json.Key
import TypedClient.Proofs.Client.Outcomes
import TypedClient.Proofs.Walk.Records
import TypedClient.Render.Code
import TypedClient.Render.Layout
import TypedClient.Render.Plain
import TypedClient.Render.Schema
import TypedClient.Schema.Merge
import TypedClient.Schema.Node
import TypedClient.Schema.Normal
import TypedClient.Schema.Union
import TypedClient.Session
import TypedClient.Source
import TypedClient.Swagger
import TypedClient.Text.Blank
import TypedClient.Text.Case
import TypedClient.Text.CaseTable
import TypedClient.Text.Digit
import TypedClient.Text.Lines
import TypedClient.Text.Percent
import TypedClient.Text.Printable
import TypedClient.Text.Range
import TypedClient.Text.Search
import TypedClient.Text.Similar
import TypedClient.TypeExpr
import TypedClient.Walk
import TypedClient.Writer
import TypedClient.Yaml.Cursor
import TypedClient.Yaml.Flow
import TypedClient.Yaml.Node
import TypedClient.Yaml.Quoted
import TypedClient.Yaml.Reader
import TypedClient.Yaml.Scalar
import TypedClient.Proofs.Schema.Parts
import TypedClient.Proofs.Store.Conservation
import TypedClient.Proofs.Schema.Merging
import TypedClient.Proofs.Builder.Unfolding
import TypedClient.Proofs.Builder.Termination
import TypedClient.Proofs.Builder.Coherence
import TypedClient.Proofs.Store.Memo
import TypedClient.Proofs.Schema.Places
import TypedClient.Proofs.Schema.Nullable
import TypedClient.Proofs.Schema.Respelling
import TypedClient.Proofs.Builder.Places
import TypedClient.Proofs.Store.Spelling
import TypedClient.Proofs.Walk.Statuses
import TypedClient.Proofs.Walk.Tagged
import TypedClient.Proofs.Module.Files
import TypedClient.Proofs.Pointer.Spelling
import TypedClient.Proofs.Walk.Errors
import TypedClient.Proofs.Json.Numerals
import TypedClient.Proofs.Swagger.Moves
import TypedClient.Proofs.Swagger.References
import TypedClient.Proofs.Braces.Scanner
import TypedClient.Proofs.Comment.Closing
import TypedClient.Proofs.Store.Acceptance
import TypedClient.Proofs.Render.Balance
import TypedClient.Proofs.Builder.Naming
import TypedClient.Proofs.Name.Identifier
import TypedClient.Proofs.NameGraph.Greedy
import TypedClient.Proofs.Walk.Names
import TypedClient.Proofs.Swagger.Contributions
import TypedClient.Proofs.Swagger.Inlining
import TypedClient.Proofs.Builder.Brands
import TypedClient.Proofs.Store.Brands
import TypedClient.Proofs.NameGraph.Routes
import TypedClient.Proofs.Builder.Mirroring
import TypedClient.Proofs.Store.Nullability
import TypedClient.Proofs.Store.Renaming
import TypedClient.Proofs.Schema.Leaves
import TypedClient.Proofs.Schema.Keys
import TypedClient.Proofs.Builder.Leaves
import TypedClient.Proofs.Schema.Meaning
import TypedClient.Proofs.Builder.Branches
import TypedClient.Proofs.Builder.Resolution
import TypedClient.Proofs.Schema.Normality
import TypedClient.Proofs.Store.Dropping
import TypedClient.Proofs.Walk.Parameters
import TypedClient.Proofs.Builder.Bounds
import TypedClient.Proofs.Pointer.Resolution
import TypedClient.Proofs.Disk.Writes
import TypedClient.Proofs.Braces.Lexing
import TypedClient.Proofs.Comment.Enclosure
import TypedClient.Proofs.Builder.Forms
import TypedClient.Proofs.Render.References
import TypedClient.Proofs.Walk.Placement
import TypedClient.Proofs.Walk.Methods
import TypedClient.Proofs.Name.CamelCase
