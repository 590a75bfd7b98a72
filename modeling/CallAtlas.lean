import CallAtlas.Script.Reader
import CallAtlas.Script.ParsedFile
import CallAtlas.Json.Basic
import CallAtlas.Json.Printer
import CallAtlas.Json.Reader
import CallAtlas.Text.Lowercase
import CallAtlas.Text.Quoted
import CallAtlas.Text.Utf8
import CallAtlas.Number.Binary
import CallAtlas.Number.Decimal
import CallAtlas.ContentHash
import CallAtlas.Failure
import CallAtlas.Graph.Catalog
import CallAtlas.Graph.Resolution
import CallAtlas.Graph.Basic
import CallAtlas.Graph.EntryPoint
import CallAtlas.Graph.Construction
import CallAtlas.Graph.Summary
import CallAtlas.Graph.Reachability
import CallAtlas.Impact.Complexity
import CallAtlas.Impact.Risk
import CallAtlas.Impact.Report
import CallAtlas.Impact.Analyzer
import CallAtlas.Layout.Coordinate
import CallAtlas.Layout.Staging
import CallAtlas.Layout.Lane
import CallAtlas.Layout.Crossing
import CallAtlas.Layout.Engine
import CallAtlas.Toml.Basic
import CallAtlas.Toml.Reader
import CallAtlas.Settings.Basic
import CallAtlas.Settings.Document
import CallAtlas.Ignore.Glob
import CallAtlas.Ignore.GlobReader
import CallAtlas.Ignore.Rule
import CallAtlas.Ignore.Policy
import CallAtlas.FileTree
import CallAtlas.Discovery
import CallAtlas.Script.SourceText
import CallAtlas.Settings.File
import CallAtlas.Snapshot.Basic
import CallAtlas.Snapshot.Document
import CallAtlas.Analysis
import CallAtlas.Proofs.Catalog
import CallAtlas.Proofs.Graph.Invariant
import CallAtlas.Proofs.Graph.Adjacency
import CallAtlas.Proofs.Graph.Insertion
import CallAtlas.Proofs.Graph.Distance
import CallAtlas.Proofs.Graph.Reachability
import CallAtlas.Proofs.Script.Place
import CallAtlas.Proofs.Script.Sweep
import CallAtlas.Proofs.Script.Fault
import CallAtlas.Proofs.Layout.StageWalk
import CallAtlas.Proofs.Layout.Staging
import CallAtlas.Proofs.Graph.Construction
import CallAtlas.Proofs.Layout.TouchedLinks
import CallAtlas.Proofs.Layout.Crossing
import CallAtlas.Proofs.Layout.Cutting
import CallAtlas.Proofs.Layout.Placement
import CallAtlas.Proofs.Layout.Recount
import CallAtlas.Proofs.Snapshot.Rebuild
import CallAtlas.Proofs.Graph.LinkOrder
import CallAtlas.Proofs.Snapshot.RoundTrip
import CallAtlas.Proofs.Graph.Renaming
import CallAtlas.Proofs.Layout.Renaming
import CallAtlas.Proofs.Layout.InsertionOrder
import CallAtlas.Proofs.Json.RoundTrip
import CallAtlas.Proofs.Snapshot.Document
import CallAtlas.Proofs.Graph.Containment
import CallAtlas.Proofs.Script.DocumentOrder
import CallAtlas.Proofs.Script.Wrapping
import CallAtlas.Proofs.Impact.Analyzer
import CallAtlas.Proofs.Impact.Report
import CallAtlas.Proofs.Layout.Columns
import CallAtlas.Proofs.Layout.Spots
import CallAtlas.Proofs.Layout.Partition
import CallAtlas.Proofs.Layout.Canvas
import CallAtlas.Proofs.Layout.Lanes
import CallAtlas.Proofs.Layout.Mirroring
import CallAtlas.Proofs.Layout.Runs
import CallAtlas.Proofs.Layout.MirroredSlots
import CallAtlas.Proofs.Layout.Heights
import CallAtlas.Proofs.Layout.StageOrder
import CallAtlas.Proofs.Layout.LocalOptimum
import CallAtlas.Proofs.Graph.Conflation
import CallAtlas.Proofs.Graph.Policy
import CallAtlas.Proofs.Graph.FileOrder
import CallAtlas.Proofs.Graph.Growth
import CallAtlas.Proofs.Path
import CallAtlas.Proofs.GroupKey
import CallAtlas.Proofs.FileTree
import CallAtlas.Proofs.Discovery.Walk
import CallAtlas.Proofs.Discovery.Report
import CallAtlas.Proofs.Discovery.ListingOrder
import CallAtlas.Proofs.Discovery.Exact
import CallAtlas.Proofs.Discovery.Links
import CallAtlas.Proofs.Analysis
import CallAtlas.Proofs.Graph.Balance
import CallAtlas.Proofs.Impact.Escalation
import CallAtlas.Proofs.Ignore.Strictness
import CallAtlas.Proofs.Discovery.Loosening
import CallAtlas.Proofs.Layout.Word
import CallAtlas.Proofs.Layout.CrossingWords
import CallAtlas.Proofs.Layout.StagingWords
import CallAtlas.Proofs.Layout.CanvasWords
import CallAtlas.Proofs.Layout.LayoutWords
import CallAtlas.Proofs.Layout.StageCounts
import CallAtlas.Proofs.Text.Utf8
import CallAtlas.Proofs.ContentHash
import CallAtlas.Proofs.Graph.Summary
