import ProjectCompiler.CommandLine.Arguments
import ProjectCompiler.CommandLine.Report
import ProjectCompiler.CommandLine.Run
import ProjectCompiler.Disk.Basic
import ProjectCompiler.Disk.Path
import ProjectCompiler.Entries
import ProjectCompiler.Generators.Configurations
import ProjectCompiler.Generators.ProjectStructure
import ProjectCompiler.Generators.Schemes
import ProjectCompiler.Generators.Targets
import ProjectCompiler.Json.Basic
import ProjectCompiler.Json.Reader
import ProjectCompiler.Json.Writer
import ProjectCompiler.Main
import ProjectCompiler.Manifest.Basic
import ProjectCompiler.Manifest.Decode
import ProjectCompiler.Manifest.Error
import ProjectCompiler.Manifest.Fault
import ProjectCompiler.Manifest.Label
import ProjectCompiler.Manifest.Lowering
import ProjectCompiler.Manifest.OfToml
import ProjectCompiler.Manifest.Violation
import ProjectCompiler.Native.Backend
import ProjectCompiler.Native.Object
import ProjectCompiler.Native.SchemeList
import ProjectCompiler.Number.Binary64
import ProjectCompiler.Number.Shortest
import ProjectCompiler.Number.Width
import ProjectCompiler.Pipeline.Basic
import ProjectCompiler.Pipeline.Error
import ProjectCompiler.Pipeline.Program
import ProjectCompiler.Pipeline.Schedule
import ProjectCompiler.Pipeline.Session
import ProjectCompiler.Project.Basic
import ProjectCompiler.Project.BuildConfiguration
import ProjectCompiler.Project.Identity
import ProjectCompiler.Project.Kind
import ProjectCompiler.Project.KindJson
import ProjectCompiler.Project.Node
import ProjectCompiler.Project.Numbering
import ProjectCompiler.Project.Scheme
import ProjectCompiler.Project.Target
import ProjectCompiler.Proofs.CommandLine.Agreement
import ProjectCompiler.Proofs.Compilation.Attachments
import ProjectCompiler.Proofs.Compilation.Dependencies
import ProjectCompiler.Proofs.Compilation.Drawing
import ProjectCompiler.Proofs.Compilation.Drawn
import ProjectCompiler.Proofs.Compilation.Draws
import ProjectCompiler.Proofs.Compilation.Instruction
import ProjectCompiler.Proofs.Compilation.Kinds
import ProjectCompiler.Proofs.Compilation.Laid
import ProjectCompiler.Proofs.Compilation.NativeGraph
import ProjectCompiler.Proofs.Compilation.Outcome
import ProjectCompiler.Proofs.Compilation.Output
import ProjectCompiler.Proofs.Compilation.Plan
import ProjectCompiler.Proofs.Compilation.Policies
import ProjectCompiler.Proofs.Compilation.Renaming
import ProjectCompiler.Proofs.Compilation.Reuse
import ProjectCompiler.Proofs.Compilation.SavedSchemes
import ProjectCompiler.Proofs.Compilation.SchemeErrors
import ProjectCompiler.Proofs.Compilation.Standard
import ProjectCompiler.Proofs.Compilation.Success
import ProjectCompiler.Proofs.Compilation.TargetOrder
import ProjectCompiler.Proofs.Disk.Path
import ProjectCompiler.Proofs.Disk.Writing
import ProjectCompiler.Proofs.Json.Reading
import ProjectCompiler.Proofs.Manifest.Configurations
import ProjectCompiler.Proofs.Manifest.Decoding
import ProjectCompiler.Proofs.Manifest.Entries
import ProjectCompiler.Proofs.Manifest.Failure
import ProjectCompiler.Proofs.Manifest.FirstViolation
import ProjectCompiler.Proofs.Manifest.Inheritance
import ProjectCompiler.Proofs.Manifest.Labels
import ProjectCompiler.Proofs.Manifest.Lowering
import ProjectCompiler.Proofs.Manifest.Outcome
import ProjectCompiler.Proofs.Manifest.Pairs
import ProjectCompiler.Proofs.Manifest.Selection
import ProjectCompiler.Proofs.Manifest.Soundness
import ProjectCompiler.Proofs.Manifest.TargetLines
import ProjectCompiler.Proofs.Manifest.TargetOrder
import ProjectCompiler.Proofs.Manifest.TestBundles
import ProjectCompiler.Proofs.Manifest.Validation
import ProjectCompiler.Proofs.Native.Operations
import ProjectCompiler.Proofs.Native.Refusals
import ProjectCompiler.Proofs.Native.SchemeList
import ProjectCompiler.Proofs.Native.Stacking
import ProjectCompiler.Proofs.Native.Steps
import ProjectCompiler.Proofs.Native.WellTyped
import ProjectCompiler.Proofs.Occurrences
import ProjectCompiler.Proofs.Pipeline.CallbackOrder
import ProjectCompiler.Proofs.Pipeline.Calls
import ProjectCompiler.Proofs.Pipeline.HookTiming
import ProjectCompiler.Proofs.Pipeline.Keeping
import ProjectCompiler.Proofs.Pipeline.Laying
import ProjectCompiler.Proofs.Pipeline.Leftovers
import ProjectCompiler.Proofs.Pipeline.Moments
import ProjectCompiler.Proofs.Pipeline.Persistence
import ProjectCompiler.Proofs.Pipeline.Quiet
import ProjectCompiler.Proofs.Pipeline.Replay
import ProjectCompiler.Proofs.Pipeline.Session
import ProjectCompiler.Proofs.Pipeline.Translation
import ProjectCompiler.Proofs.Project.Cloning
import ProjectCompiler.Proofs.Project.Contents
import ProjectCompiler.Proofs.Project.Flattening
import ProjectCompiler.Proofs.Project.Growth
import ProjectCompiler.Proofs.Project.Layers
import ProjectCompiler.Proofs.Project.Making
import ProjectCompiler.Proofs.Project.Nodes
import ProjectCompiler.Proofs.Project.Renaming
import ProjectCompiler.Proofs.Project.Translated
import ProjectCompiler.Proofs.Project.Workshop
import ProjectCompiler.Proofs.Schedule.Checks
import ProjectCompiler.Proofs.Schedule.Cycles
import ProjectCompiler.Proofs.Schedule.Leaves
import ProjectCompiler.Proofs.Schedule.Placement
import ProjectCompiler.Proofs.Schedule.WellFormed
import ProjectCompiler.Proofs.Settings.Algebra
import ProjectCompiler.Proofs.Settings.Merge
import ProjectCompiler.Proofs.Settings.Reading
import ProjectCompiler.Proofs.Stateful
import ProjectCompiler.Proofs.Text.Everywhere
import ProjectCompiler.Proofs.Text.Search
import ProjectCompiler.Proofs.Toml.Elements
import ProjectCompiler.Proofs.Toml.Ordered
import ProjectCompiler.Proofs.Toml.Passages
import ProjectCompiler.Proofs.Toml.Rest
import ProjectCompiler.Proofs.Toml.Tree
import ProjectCompiler.Settings.Basic
import ProjectCompiler.Settings.OfJson
import ProjectCompiler.Text.Blank
import ProjectCompiler.Text.Digit
import ProjectCompiler.Text.Escaped
import ProjectCompiler.Text.Extender
import ProjectCompiler.Text.Ranges
import ProjectCompiler.Text.Search
import ProjectCompiler.Text.Shape
import ProjectCompiler.Toml.Basic
import ProjectCompiler.Toml.Document
import ProjectCompiler.Toml.Moment
import ProjectCompiler.Toml.Quoted
import ProjectCompiler.Toml.Reader
import ProjectCompiler.Toml.Tree
import ProjectCompiler.Toml.Word
