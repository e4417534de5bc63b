import CodeAtlas.Text.Units
import CodeAtlas.Text.Blank
import CodeAtlas.Text.Split
import CodeAtlas.Text.Path
import CodeAtlas.Text.Utf8
import CodeAtlas.Number.Scalar
import CodeAtlas.Number.Binary
import CodeAtlas.Number.Shortest
import CodeAtlas.Json.Basic
import CodeAtlas.Json.Printer
import CodeAtlas.Json.Parser
import CodeAtlas.Json.Access
import CodeAtlas.Digest.Words
import CodeAtlas.Digest.Sha1
import CodeAtlas.Digest.Sha256
import CodeAtlas.Diagnostic
import CodeAtlas.Error
import CodeAtlas.Log
import CodeAtlas.Tool.Response
import CodeAtlas.Element
import CodeAtlas.ModulePath
import CodeAtlas.Language
import CodeAtlas.Collector
import CodeAtlas.Outline
import CodeAtlas.SyntaxTree.Basic
import CodeAtlas.SyntaxTree.Traversal
import CodeAtlas.SyntaxTree.Issue
import CodeAtlas.SyntaxTree.Flat
import CodeAtlas.SyntaxTree.Place
import CodeAtlas.Extract.Names
import CodeAtlas.Extract.Script
import CodeAtlas.Extract.Python
import CodeAtlas.Extract.Go
import CodeAtlas.Extract.Java
import CodeAtlas.Extract.Rust
import CodeAtlas.Extract.File
import CodeAtlas.Pattern.Basic
import CodeAtlas.Pattern.Case
import CodeAtlas.Pattern.Category
import CodeAtlas.Pattern.Parser
import CodeAtlas.Pattern.Matcher
import CodeAtlas.Table
import CodeAtlas.Relationship
import CodeAtlas.Resolution.Candidate
import CodeAtlas.Resolution.Basic
import CodeAtlas.Graph.Search
import CodeAtlas.Graph.Component
import CodeAtlas.Graph.Basic
import CodeAtlas.Graph.Metric
import CodeAtlas.Graph.Reuse
import CodeAtlas.Cluster.Partition
import CodeAtlas.Cluster.Propagation
import CodeAtlas.Classification
import CodeAtlas.Boundary.Score
import CodeAtlas.Boundary.Cluster
import CodeAtlas.Boundary.Detection
import CodeAtlas.Layer
import CodeAtlas.AntiPattern
import CodeAtlas.Metrics
import CodeAtlas.Glob.Basic
import CodeAtlas.Glob.Reader
import CodeAtlas.Glob.Matcher
import CodeAtlas.Project.Ignore
import CodeAtlas.Project.Directory
import CodeAtlas.Project.Settings
import CodeAtlas.Project.Scan
import CodeAtlas.Project.Workspace
import CodeAtlas.Batch.Outcome
import CodeAtlas.Batch.Progress
import CodeAtlas.Batch.Schedule
import CodeAtlas.Publication
import CodeAtlas.Instant
import CodeAtlas.Analysis.Basic
import CodeAtlas.Analysis.Difference
import CodeAtlas.Analysis.Report
import CodeAtlas.Compact.Model
import CodeAtlas.Compact.File
import CodeAtlas.Compact.Report
import CodeAtlas.Compact.Analysis
import CodeAtlas.Schema
import CodeAtlas.Label
import CodeAtlas.Configuration
import CodeAtlas.Session.Analyzer
import CodeAtlas.Session.Run
import CodeAtlas.Session.Basic
import CodeAtlas.Tool.Catalog
import CodeAtlas.Proofs.List
import CodeAtlas.Proofs.Text.Order
import CodeAtlas.Proofs.Text.Path
import CodeAtlas.Proofs.Table
import CodeAtlas.Proofs.Element
import CodeAtlas.Proofs.Resolution.Update
import CodeAtlas.Proofs.Resolution.Ends
import CodeAtlas.Proofs.Text.Split
import CodeAtlas.Proofs.Graph.Search
import CodeAtlas.Proofs.Graph.Basic
import CodeAtlas.Proofs.Graph.Reuse
import CodeAtlas.Proofs.Graph.Chain
import CodeAtlas.Proofs.Graph.Integrity
import CodeAtlas.Proofs.Boundary.Place
import CodeAtlas.Proofs.Boundary.Draft
import CodeAtlas.Proofs.Boundary.Cluster
import CodeAtlas.Proofs.Boundary.Score
import CodeAtlas.Proofs.Boundary.Reuse
import CodeAtlas.Proofs.Batch.Limiter
import CodeAtlas.Proofs.Batch
import CodeAtlas.Proofs.Publication
import CodeAtlas.Proofs.Session.Snapshot
import CodeAtlas.Proofs.Session.State
import CodeAtlas.Proofs.Session.Tree
import CodeAtlas.Proofs.Session.History
import CodeAtlas.Proofs.Session.Incremental
import CodeAtlas.Proofs.Boundary.Members
import CodeAtlas.Proofs.Cluster.Partition
import CodeAtlas.Proofs.Collector
import CodeAtlas.Proofs.Outline
import CodeAtlas.Proofs.Extract.Names
import CodeAtlas.Proofs.Extract.Script
import CodeAtlas.Proofs.Extract.Python
import CodeAtlas.Proofs.Extract.Go
import CodeAtlas.Proofs.Extract.Java
import CodeAtlas.Proofs.Extract.Rust
import CodeAtlas.Proofs.Extract.File
import CodeAtlas.Proofs.Publication.Turns
import CodeAtlas.Proofs.Session.Call
import CodeAtlas.Proofs.Session.Failure
import CodeAtlas.Proofs.Session.Findings
import CodeAtlas.Proofs.Session.Labels
import CodeAtlas.Proofs.Session.Coverage
import CodeAtlas.Proofs.Language
import CodeAtlas.Proofs.Number.Order
import CodeAtlas.Proofs.Number.Ratio
import CodeAtlas.Proofs.Pattern.Flags
import CodeAtlas.Proofs.Schema
import CodeAtlas.Proofs.Configuration
import CodeAtlas.Proofs.Project.Scan
import CodeAtlas.Proofs.Session.Cancellation
import CodeAtlas.Proofs.Session.IgnoreRules
import CodeAtlas.Proofs.SyntaxTree.Place
import CodeAtlas.Proofs.Extract.Malformed
import CodeAtlas.Proofs.Outline.References
import CodeAtlas.Proofs.Extract.Recovery
import CodeAtlas.Proofs.Schema.Written
import CodeAtlas.Proofs.Configuration.Reload
import CodeAtlas.Proofs.Json.Alike
import CodeAtlas.Proofs.Json.Parser
import CodeAtlas.Proofs.Json.Canonical
import CodeAtlas.Proofs.Graph.Component
import CodeAtlas.Proofs.Relationship
import CodeAtlas.Proofs.Resolution.Lookup
import CodeAtlas.Proofs.Resolution.Meaning
import CodeAtlas.Proofs.Resolution.Merging
import CodeAtlas.Proofs.Resolution.Unfolded
import CodeAtlas.Proofs.Graph.Multiplicity
import CodeAtlas.Proofs.Resolution.Folding
import CodeAtlas.Proofs.Resolution.Order
import CodeAtlas.Proofs.Cluster.Propagation
import CodeAtlas.Proofs.Boundary.Order
import CodeAtlas.Proofs.Graph.Cycle
import CodeAtlas.Proofs.Graph.Depth
import CodeAtlas.Proofs.Graph.Neighbours
import CodeAtlas.Proofs.Graph.Impact
import CodeAtlas.Proofs.Graph.Complexity
import CodeAtlas.Proofs.Boundary.Crossing
import CodeAtlas.Proofs.Cluster.Settling
import CodeAtlas.Proofs.Layer.Chain
import CodeAtlas.Proofs.Layer.Report
import CodeAtlas.Proofs.Outline.Regular
import CodeAtlas.Proofs.Outline.Sketch
import CodeAtlas.Proofs.Outline.Imports
import CodeAtlas.Proofs.Extract.Imports
import CodeAtlas.Proofs.Extract.Exports
import CodeAtlas.Proofs.Text.Relative
import CodeAtlas.Proofs.ModulePath
import CodeAtlas.Proofs.ModulePath.Specifier
import CodeAtlas.Proofs.Extract.Loading
import CodeAtlas.Proofs.ModulePath.Colons
import CodeAtlas.Proofs.Outline.Declarations
import CodeAtlas.Proofs.Extract.Nested
import CodeAtlas.Proofs.Extract.Uses
import CodeAtlas.Proofs.Collector.Steps
import CodeAtlas.Proofs.Language.Registry
import CodeAtlas.Proofs.Diagnostic
import CodeAtlas.Proofs.Analysis.Difference
import CodeAtlas.Proofs.SyntaxTree.Walk
