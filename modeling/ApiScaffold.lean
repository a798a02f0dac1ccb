import ApiScaffold.Name.Property
import ApiScaffold.Name.Noun
import ApiScaffold.Text.Quoted
import ApiScaffold.Json.Parser
import ApiScaffold.Json.Printer
import ApiScaffold.Include.Merge
import ApiScaffold.Wiring.Handler
import ApiScaffold.Disk
import ApiScaffold.Code.Declaration
import ApiScaffold.Persistence.Query
import ApiScaffold.Model.Build
import ApiScaffold.Schema.Build
import ApiScaffold.Extension.Decode
import ApiScaffold.Main
import ApiScaffold.Proofs.Json.Parts
import ApiScaffold.Proofs.Schema.Walk
import ApiScaffold.Proofs.Schema.Depth
import ApiScaffold.Proofs.Model.Termination
import ApiScaffold.Proofs.Run.Interleaving
import ApiScaffold.Proofs.Run.Plan
import ApiScaffold.Proofs.Run.Invariant
import ApiScaffold.Proofs.Run.Completion
import ApiScaffold.Proofs.Run.Sequential
import ApiScaffold.Proofs.Run.TierBarrier
import ApiScaffold.Proofs.Yaml.KeyText
import ApiScaffold.Proofs.Yaml.Mapping
import ApiScaffold.Proofs.Include.Security
import ApiScaffold.Proofs.Document.Target
import ApiScaffold.Proofs.Disk.Locate
import ApiScaffold.Proofs.Document.Wanted
import ApiScaffold.Proofs.Document.Load
import ApiScaffold.Proofs.Yaml.Part
import ApiScaffold.Proofs.Include.Union
import ApiScaffold.Proofs.Include.Merge
import ApiScaffold.Proofs.Include.Keep
import ApiScaffold.Proofs.Disk.Change
import ApiScaffold.Proofs.Disk.Listing
import ApiScaffold.Proofs.Schema.Nested
import ApiScaffold.Proofs.Document.Site
import ApiScaffold.Proofs.Document.Copy
import ApiScaffold.Proofs.Include.Scratch
import ApiScaffold.Proofs.Include.SelfContained
import ApiScaffold.Proofs.Json.Sorted
import ApiScaffold.Proofs.Document.Mention
import ApiScaffold.Proofs.Document.Nesting
import ApiScaffold.Proofs.Document.Loop
import ApiScaffold.Proofs.Document.Source
import ApiScaffold.Proofs.Document.Entered
import ApiScaffold.Proofs.Document.Ending
import ApiScaffold.Proofs.Document.Found
import ApiScaffold.Proofs.Document.Leftover
import ApiScaffold.Proofs.Document.OnePiece
import ApiScaffold.Proofs.Code.Declared
import ApiScaffold.Proofs.Path.Ending
import ApiScaffold.Proofs.Disk.Later
import ApiScaffold.Proofs.Storage.Write
import ApiScaffold.Proofs.Backend.Jobs
import ApiScaffold.Proofs.Backend.Handwritten
import ApiScaffold.Proofs.Backend.Course
import ApiScaffold.Proofs.Backend.Rerun
import ApiScaffold.Proofs.Disk.Tree
import ApiScaffold.Proofs.Backend.Idempotent
import ApiScaffold.Proofs.Backend.Beside
import ApiScaffold.Proofs.Backend.DryRun
import ApiScaffold.Proofs.Model.Valid
import ApiScaffold.Proofs.Backend.Folder
import ApiScaffold.Proofs.Backend.Once
import ApiScaffold.Proofs.Code.Constructor
import ApiScaffold.Proofs.Operation.Public
import ApiScaffold.Proofs.Schema.Overlay
import ApiScaffold.Proofs.Schema.Redirect
import ApiScaffold.Proofs.Schema.Alias
import ApiScaffold.Proofs.Disk.Outside
import ApiScaffold.Proofs.Run.Inside
import ApiScaffold.Proofs.Backend.Inside
import ApiScaffold.Proofs.Parameter.Merge
import ApiScaffold.Proofs.Schema.NestedWalk
import ApiScaffold.Proofs.Include.LeftUnion
import ApiScaffold.Proofs.Backend.Names
import ApiScaffold.Proofs.Include.Declared
import ApiScaffold.Proofs.Persistence.Queries
import ApiScaffold.Proofs.Persistence.Names
import ApiScaffold.Proofs.Persistence.TableName
import ApiScaffold.Proofs.Backend.Literals
import ApiScaffold.Proofs.Code.Imports
import ApiScaffold.Proofs.Code.Layout
import ApiScaffold.Proofs.Text.Split
import ApiScaffold.Proofs.Run.Numbering
import ApiScaffold.Proofs.Name.Casing
import ApiScaffold.Proofs.Wiring.Repository
import ApiScaffold.Proofs.Backend.HandlerTypes
import ApiScaffold.Proofs.Backend.Wired
import ApiScaffold.Proofs.Name.Noun
import ApiScaffold.Proofs.Document.Normalize
import ApiScaffold.Proofs.Model.Issues
import ApiScaffold.Proofs.Document.Methods
import ApiScaffold.Proofs.Name.Property
import ApiScaffold.Proofs.Storage.Report
