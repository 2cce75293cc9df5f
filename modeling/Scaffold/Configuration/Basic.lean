import Scaffold.Blueprint.Normalize
import Scaffold.Generation.Architecture

/-!
The configuration.

* `Locations`: where blueprints are, and where generated files go.
* `HistorySettings`: whether and where runs are kept.
* `LayerSettings`: the layers of an architecture.
* `Configuration`: the whole, with its decoder and its layout.
* `Configuration.settings`, `Configuration.drivers`: what normalization and
  generation need of it.
-/

namespace Scaffold

open Files Shape Reading

/-- Where blueprints are, and where generated files go. -/
structure Locations where
  /-- The directory of all blueprints. -/
  blueprints : Path
  /-- The output root. -/
  output : Path
  deriving DecidableEq, Repr

namespace Locations

/-- The locations when none are given. -/
def standard : Locations := ⟨.ofText "blueprints", .ofText "."⟩

/-- The decoder of locations. -/
def decode : Decoder Locations :=
  strictRecord "PathSettings" ["blueprints", "output"] <|
    ((done fun blueprints output => Locations.mk (.ofText blueprints) (.ofText output)).apply
      (defaulted "blueprints" path standard.blueprints.toText)).apply
      (defaulted "output" path standard.output.toText)

/-- The layout of locations. -/
def toPlain (l : Locations) : Json :=
  .object [("blueprints", .string l.blueprints.toText), ("output", .string l.output.toText)]

end Locations

/-- Whether and where runs are kept. -/
structure HistorySettings where
  /-- Whether runs are kept. -/
  enabled : Bool
  /-- The directory of all runs. -/
  path : Path
  deriving DecidableEq, Repr

namespace HistorySettings

/-- The settings when none are given. -/
def standard : HistorySettings := ⟨true, .ofText ".blueprintx/history"⟩

/-- The decoder of settings. -/
def decode : Decoder HistorySettings :=
  strictRecord "HistorySettings" ["enabled", "path"] <|
    ((done fun enabled path => HistorySettings.mk enabled (.ofText path)).apply
      (defaulted "enabled" bool standard.enabled)).apply
      (defaulted "path" Shape.path standard.path.toText)

/-- The layout of settings. -/
def toPlain (h : HistorySettings) : Json :=
  .object [("enabled", .bool h.enabled), ("path", .string h.path.toText)]

end HistorySettings

/-- The layers of an architecture. -/
structure LayerSettings where
  /-- The names of the layers, in order. -/
  layers : List String
  /-- Anything else. -/
  metadata : Named
  deriving BEq, Repr

namespace LayerSettings

/-- The decoder of a list of texts that is not empty. -/
def decodeLayers : Decoder (List String) := fun d => do
  match ← listOf text d with
  | [] => Checked.refuse .emptyList
  | layers => return layers

/-- The decoder of layers. -/
def decode : Decoder LayerSettings :=
  strictRecord "ArchitectureSettings" ["layers", "metadata"] <|
    ((done LayerSettings.mk).apply (required "layers" decodeLayers)).apply
      (defaulted "metadata" (dictOf anything) [])

/-- The layout of layers. -/
def toPlain (l : LayerSettings) : Except PlainError Json := do
  return .object [("layers", .ofTexts l.layers), ("metadata", ← Document.toPlainRecord l.metadata)]

end LayerSettings

/-- The whole configuration. -/
structure Configuration where
  /-- Where blueprints are, and where generated files go. -/
  locations : Locations
  /-- Whether and where runs are kept. -/
  history : HistorySettings
  /-- The architecture of a blueprint that names none. -/
  defaultArchitecture : String
  /-- The layers of every architecture. -/
  architectures : List (String × LayerSettings)
  /-- The names of generators by layer. -/
  generators : List (String × String)
  /-- Options of blueprints that do not set them. -/
  defaultOptions : Named
  deriving BEq, Repr

namespace Configuration

/-- The architectures when none are given. -/
def standardArchitectures : List (String × LayerSettings) :=
  [(standardArchitecture, ⟨["snapshot"], []⟩)]

/-- The decoder of configurations. -/
def decode : Decoder Configuration :=
  strictRecord "BlueprintxConfig"
    ["paths", "history", "default_architecture", "architectures", "generators",
     "default_options"] <|
    ((((((done Configuration.mk).apply (defaulted "paths" Locations.decode .standard)).apply
      (defaulted "history" HistorySettings.decode .standard)).apply
      (defaulted "default_architecture" text standardArchitecture)).apply
      (defaulted "architectures" (dictOf LayerSettings.decode) standardArchitectures)).apply
      (defaulted "generators" (dictOf text) [])).apply
      (defaulted "default_options" (dictOf anything) standardOptions)

/-- The layout of a configuration. -/
def toPlain (c : Configuration) : Except PlainError Json := do
  let architectures ← c.architectures.mapM fun entry =>
    entry.2.toPlain.map fun plain => (entry.1, plain)
  return .object [("paths", c.locations.toPlain), ("history", c.history.toPlain),
    ("default_architecture", .string c.defaultArchitecture),
    ("architectures", .object architectures),
    ("generators", .object (c.generators.map fun entry => (entry.1, .string entry.2))),
    ("default_options", ← Document.toPlainRecord c.defaultOptions)]

/-- The settings of normalization: options that are not configured are standard. -/
def settings (c : Configuration) : Settings where
  root := some c.locations.blueprints
  defaultArchitecture := c.defaultArchitecture
  defaultOptions := c.defaultOptions.foldl
    (fun options entry => putEntry entry.1 entry.2 options) standardOptions

/-- The architectures by name. -/
def drivers (c : Configuration) : Architectures :=
  c.architectures.map fun entry => (entry.1, ⟨entry.1, entry.2.layers, entry.2.metadata⟩)

end Configuration

end Scaffold
