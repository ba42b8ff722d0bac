import CallGraph.Node
import CallGraph.EdgeSet
import CallGraph.Error
import CallGraph.Graph
import CallGraph.Signature
import CallGraph.Text.Blank
import CallGraph.Text.Identifier
import CallGraph.Text.Quoted
import CallGraph.Event
import CallGraph.Collapse
import CallGraph.Clean
import CallGraph.Dot
import CallGraph.Inspect
import CallGraph.Source.Token
import CallGraph.Source.Tree
import CallGraph.Source.Rule
import CallGraph.Source.Grammar
import CallGraph.Path
import CallGraph.Source.Outline
import CallGraph.Source.Extract
import CallGraph.Text.Hex
import CallGraph.Json.Writer
import CallGraph.Json.Reader
import CallGraph.Json.Record
import CallGraph.Json.Model
import CallGraph.Toml.Item
import CallGraph.Toml.Scalar
import CallGraph.Toml.Reader
import CallGraph.Volume
import CallGraph.Volume.Replace
import CallGraph.Failure
import CallGraph.Config
import CallGraph.TextMap
import CallGraph.Cache
import CallGraph.Pipeline
import CallGraph.Render
import CallGraph.Ignore.Glob
import CallGraph.Ignore.Rules
import CallGraph.Sources
import CallGraph.Volume.Edit
import CallGraph.Job
import CallGraph.Watch.Scope
import CallGraph.Machine
import CallGraph.Watch.Service
import CallGraph.Command.Arguments
import CallGraph.Command.Help
import CallGraph.Command.Run
import CallGraph.Text.Timestamp
import CallGraph.Main
import CallGraph.Proofs.Views
import CallGraph.Proofs.Resolution
import CallGraph.Proofs.Collapsing
import CallGraph.Proofs.Confluence
import CallGraph.Proofs.Cleaning
import CallGraph.Proofs.Folding
import CallGraph.Proofs.CacheFile
import CallGraph.Proofs.FileTree
import CallGraph.Proofs.Storage
import CallGraph.Proofs.Durability
import CallGraph.Proofs.Builds
import CallGraph.Proofs.Transparency
import CallGraph.Proofs.Faults
import CallGraph.Proofs.Strictness
import CallGraph.Proofs.Concurrency
import CallGraph.Proofs.Visiting
import CallGraph.Proofs.Extraction
import CallGraph.Proofs.Forest
import CallGraph.Proofs.Retention
import CallGraph.Dot.Reader
import CallGraph.Proofs.Drawing
import CallGraph.Proofs.Renumbering
import CallGraph.Indexed
import CallGraph.Proofs.Slots
import CallGraph.Proofs.Representation
import CallGraph.Proofs.Agreement
import CallGraph.Proofs.Concatenation
import CallGraph.Proofs.Appending
import CallGraph.Proofs.Locations
import CallGraph.Proofs.Coverage
import CallGraph.Watch.Loop
import CallGraph.Proofs.Rebuilding
import CallGraph.Proofs.Idempotence
import CallGraph.Proofs.SourceOrder
import CallGraph.Proofs.Failing
import CallGraph.Source.Pool
import CallGraph.Proofs.Requests
import CallGraph.Proofs.Delivery
import CallGraph.Proofs.Rejection
import CallGraph.Proofs.Parents
import CallGraph.Proofs.Scope
import CallGraph.Proofs.LastBuild
import CallGraph.Proofs.Counting
import CallGraph.Proofs.Escaping
import CallGraph.Proofs.Walking
import CallGraph.Proofs.Collecting
import CallGraph.Proofs.Spelling
import CallGraph.Proofs.RoundTrip
