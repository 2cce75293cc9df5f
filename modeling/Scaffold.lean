import Scaffold.Document.Canonical
import Scaffold.Main
import Scaffold.Proofs.Order.Sorting
import Scaffold.Proofs.Files.Growth
import Scaffold.Proofs.Files.PathText
import Scaffold.Proofs.Files.Contents
import Scaffold.Proofs.Generation.Writing
import Scaffold.Proofs.History.Listing
import Scaffold.Proofs.History.NewestFirst
import Scaffold.Proofs.Files.Steps
import Scaffold.Proofs.History.Names
import Scaffold.Proofs.History.Recording
import Scaffold.Proofs.Number.Rounding
import Scaffold.Proofs.Number.Shortest
import Scaffold.Proofs.Json.Numbers
import Scaffold.Proofs.Bytes.Utf8
import Scaffold.Proofs.Json.Reading
import Scaffold.Proofs.Validation.Structure
import Scaffold.Proofs.Validation.Acceptance
import Scaffold.Proofs.Document.Plain
import Scaffold.Proofs.Files.Ways
import Scaffold.Proofs.History.Holdings
import Scaffold.Proofs.History.Succession
import Scaffold.Proofs.Files.Avoiding
import Scaffold.Proofs.Generation.Batches
import Scaffold.Proofs.History.CrashSafety
import Scaffold.Proofs.History.Rewinding
import Scaffold.Proofs.History.Untouched
import Scaffold.Proofs.History.BestEffort
import Scaffold.Proofs.Generation.Confinement
import Scaffold.Proofs.Blueprint.Isolation
import Scaffold.Proofs.Commands.Generating
import Scaffold.Proofs.Json.Strict
import Scaffold.Proofs.Json.Rearranged
import Scaffold.Proofs.Shape.Decoding
import Scaffold.Proofs.Blueprint.Layout
import Scaffold.Proofs.Document.Canonical
import Scaffold.Proofs.History.Lookup
import Scaffold.Proofs.History.ManifestFile
import Scaffold.Proofs.Configuration.Loading
import Scaffold.Proofs.Text.Casing
import Scaffold.Proofs.Shape.Named
import Scaffold.Proofs.Blueprint.Options
import Scaffold.Proofs.Blueprint.Normalizing
import Scaffold.Proofs.Document.Parts
import Scaffold.Proofs.Validation.Ending
import Scaffold.Proofs.Files.Elsewhere
import Scaffold.Proofs.History.Touching
import Scaffold.Proofs.History.Relisting
import Scaffold.Proofs.Commands.RollingBack
import Scaffold.Proofs.Validation.Exactness
import Scaffold.Proofs.Files.Lasting
import Scaffold.Proofs.Validation.Signatures
import Scaffold.Proofs.Generation.Regenerating
import Scaffold.Proofs.History.Repeating
import Scaffold.Proofs.Configuration.Defaults
import Scaffold.Proofs.Text.Spelling
import Scaffold.Proofs.Text.Segments
import Scaffold.Proofs.Generation.Snapshots
import Scaffold.Proofs.Blueprint.Relocating
import Scaffold.Proofs.Files.Below
import Scaffold.Proofs.Blueprint.Discovering
import Scaffold.Proofs.Validation.Relocation
import Scaffold.Proofs.Blueprint.Showing
import Scaffold.Proofs.Validation.TableNames
import Scaffold.Proofs.Validation.Staging
import Scaffold.Proofs.Generation.Layers
import Scaffold.Proofs.History.Components
import Scaffold.Proofs.History.Damage
import Scaffold.Proofs.Commands.Inspecting
import Scaffold.Proofs.Commands.Tags
import Scaffold.Proofs.Commands.Composing
import Scaffold.Proofs.Commands.Markings
import Scaffold.Proofs.Text.NormalForm
import Scaffold.Proofs.Validation.Merging
import Scaffold.Proofs.Blueprint.Sanitizing
import Scaffold.Proofs.History.AtomicWrites
