import RepoGraph.Batch
import RepoGraph.Build.Enriching
import RepoGraph.Build.Populating
import RepoGraph.Build.Reading
import RepoGraph.Command.Argument
import RepoGraph.Command.Grammar
import RepoGraph.Command.Running
import RepoGraph.Dependency
import RepoGraph.Disk
import RepoGraph.Enrich.Describing
import RepoGraph.Enrich.Embedding
import RepoGraph.Entity
import RepoGraph.Extract.Asset
import RepoGraph.Extract.Code
import RepoGraph.Extract.Declaration
import RepoGraph.Extract.Document
import RepoGraph.Extract.Findings
import RepoGraph.Extract.FrontMatter
import RepoGraph.Extract.Outline
import RepoGraph.Extract.Script
import RepoGraph.Failure
import RepoGraph.Graph.Basic
import RepoGraph.Graph.Merge
import RepoGraph.Graph.Statement
import RepoGraph.Graph.Store
import RepoGraph.History
import RepoGraph.Json.Basic
import RepoGraph.Json.Display
import RepoGraph.Json.Printer
import RepoGraph.Json.Reader
import RepoGraph.Json.Search
import RepoGraph.Logging
import RepoGraph.Number.Binary64
import RepoGraph.Number.Decimal
import RepoGraph.Number.Numeral
import RepoGraph.Outline.Expression
import RepoGraph.Outline.Statement
import RepoGraph.Outline.Token
import RepoGraph.Outline.Tree
import RepoGraph.Output
import RepoGraph.Path
import RepoGraph.Project
import RepoGraph.Proofs.Attempts
import RepoGraph.Proofs.Build
import RepoGraph.Proofs.Corresponding
import RepoGraph.Proofs.Course.Nodes
import RepoGraph.Proofs.Course.Standing
import RepoGraph.Proofs.Course.Steps
import RepoGraph.Proofs.Dependency
import RepoGraph.Proofs.Disk
import RepoGraph.Proofs.Disk.Changes
import RepoGraph.Proofs.Disk.Making
import RepoGraph.Proofs.Disk.Room
import RepoGraph.Proofs.Edges
import RepoGraph.Proofs.Enrich.Batches
import RepoGraph.Proofs.Enrich.Describing
import RepoGraph.Proofs.Enrich.Embedding
import RepoGraph.Proofs.Enrich.Positions
import RepoGraph.Proofs.Enrich.Summary
import RepoGraph.Proofs.Enriching
import RepoGraph.Proofs.Extract
import RepoGraph.Proofs.Extract.Account
import RepoGraph.Proofs.Extract.Classes
import RepoGraph.Proofs.Extract.Comments
import RepoGraph.Proofs.Extract.Fences
import RepoGraph.Proofs.Extract.Fields
import RepoGraph.Proofs.Extract.Imports
import RepoGraph.Proofs.Extract.Kept
import RepoGraph.Proofs.Extract.Layout
import RepoGraph.Proofs.Extract.Likeness
import RepoGraph.Proofs.Extract.Methods
import RepoGraph.Proofs.Extract.Offered
import RepoGraph.Proofs.Extract.OutlineLikeness
import RepoGraph.Proofs.Extract.Parameters
import RepoGraph.Proofs.Extract.ScriptLikeness
import RepoGraph.Proofs.Extract.Walk
import RepoGraph.Proofs.Extract.WellFormed
import RepoGraph.Proofs.Graph.Facts
import RepoGraph.Proofs.Graph.Merging
import RepoGraph.Proofs.Graph.Store
import RepoGraph.Proofs.Handover
import RepoGraph.Proofs.Incremental
import RepoGraph.Proofs.Inheritance
import RepoGraph.Proofs.Json.Fields
import RepoGraph.Proofs.Json.Grammar
import RepoGraph.Proofs.Json.Kept
import RepoGraph.Proofs.Json.Numeral
import RepoGraph.Proofs.Json.RoundTrip
import RepoGraph.Proofs.Json.Search
import RepoGraph.Proofs.Json.Text
import RepoGraph.Proofs.Number.Rounding
import RepoGraph.Proofs.Number.Shortest
import RepoGraph.Proofs.Outline.Expression
import RepoGraph.Proofs.Outline.Signature
import RepoGraph.Proofs.Outline.Statement
import RepoGraph.Proofs.Path
import RepoGraph.Proofs.Populate.Declarations
import RepoGraph.Proofs.Populate.Effect
import RepoGraph.Proofs.Populate.Mirror
import RepoGraph.Proofs.Populate.Points
import RepoGraph.Proofs.Populate.Progress
import RepoGraph.Proofs.Populate.Repair
import RepoGraph.Proofs.Populate.Success
import RepoGraph.Proofs.Populate.Untouched
import RepoGraph.Proofs.Project
import RepoGraph.Proofs.Reading
import RepoGraph.Proofs.Reading.Files
import RepoGraph.Proofs.Reading.Isolation
import RepoGraph.Proofs.Record
import RepoGraph.Proofs.Server.Agreement
import RepoGraph.Proofs.Server.Database
import RepoGraph.Proofs.Server.Entities
import RepoGraph.Proofs.Server.Mirror
import RepoGraph.Proofs.Server.Query
import RepoGraph.Proofs.Server.Reading
import RepoGraph.Proofs.Server.Relationships
import RepoGraph.Proofs.Server.Sending
import RepoGraph.Proofs.Service.Apart
import RepoGraph.Proofs.Service.Interleaving
import RepoGraph.Proofs.Service.Jobs
import RepoGraph.Proofs.Service.Refusal
import RepoGraph.Proofs.Service.SingleFlight
import RepoGraph.Proofs.Service.Standing
import RepoGraph.Proofs.Settings.Loading
import RepoGraph.Proofs.Settings.Precedence
import RepoGraph.Proofs.Source.Coverage
import RepoGraph.Proofs.Source.Diff
import RepoGraph.Proofs.Source.Discovery
import RepoGraph.Proofs.Spans
import RepoGraph.Proofs.Staging
import RepoGraph.Proofs.Staging.Atomic
import RepoGraph.Proofs.Staging.Lossless
import RepoGraph.Proofs.Stores.Outcome
import RepoGraph.Proofs.Stores.Requests
import RepoGraph.Proofs.Stores.Scope
import RepoGraph.Proofs.Stores.Sound
import RepoGraph.Proofs.Success
import RepoGraph.Proofs.Syntax.Comments
import RepoGraph.Proofs.Syntax.Scan
import RepoGraph.Proofs.Syntax.Tree
import RepoGraph.Proofs.Text.Decoding
import RepoGraph.Proofs.Time.Elapsed
import RepoGraph.Proofs.Time.Stamps
import RepoGraph.Proofs.Twin.Apart
import RepoGraph.Proofs.Twin.Builds
import RepoGraph.Proofs.Twin.Enriching
import RepoGraph.Proofs.Twin.Histories
import RepoGraph.Proofs.Twin.Populating
import RepoGraph.Proofs.Twin.Reading
import RepoGraph.Proofs.Twin.Runs
import RepoGraph.Proofs.Twin.Staging
import RepoGraph.Proofs.Twin.Stores
import RepoGraph.Proofs.Vector.Numbers
import RepoGraph.Proofs.Vector.Points
import RepoGraph.Proofs.Yaml.Emission
import RepoGraph.Proofs.Yaml.Faults
import RepoGraph.Proofs.Yaml.Writing
import RepoGraph.Record
import RepoGraph.Relationship
import RepoGraph.Request
import RepoGraph.Script.Class
import RepoGraph.Script.Expression
import RepoGraph.Script.Goal
import RepoGraph.Script.Markup
import RepoGraph.Script.Member
import RepoGraph.Script.Statement
import RepoGraph.Script.Token
import RepoGraph.Script.Tree
import RepoGraph.Script.Typing
import RepoGraph.Service.State
import RepoGraph.Service.Working
import RepoGraph.Settings
import RepoGraph.Settings.File
import RepoGraph.Source.Change
import RepoGraph.Source.Discovery
import RepoGraph.Source.Kind
import RepoGraph.Source.Revision
import RepoGraph.Staging
import RepoGraph.Syntax.File
import RepoGraph.Syntax.Node
import RepoGraph.Syntax.Scan
import RepoGraph.Text.Blank
import RepoGraph.Text.Case
import RepoGraph.Text.Order
import RepoGraph.Text.Printable
import RepoGraph.Text.Quoted
import RepoGraph.Text.Utf8
import RepoGraph.Text.Word
import RepoGraph.Time
import RepoGraph.Vector.Basic
import RepoGraph.Vector.Store
import RepoGraph.World
import RepoGraph.Yaml.Emission
import RepoGraph.Yaml.Lexer
import RepoGraph.Yaml.Literal
import RepoGraph.Yaml.Node
import RepoGraph.Yaml.Reader
import RepoGraph.Yaml.Resolve
import RepoGraph.Yaml.Value
