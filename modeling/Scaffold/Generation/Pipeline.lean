import Scaffold.Breakdown
import Scaffold.Generation.Generator
import Scaffold.Generation.Writer

/-!
The pipeline: the files of every layer of a blueprint's architecture.

* `Selection`, `selectLayers`: which layers are wanted.
* `Generators`: the registry of generators by layer, the case of which does not
  matter.
* `Pipeline.generate`: the output of a blueprint, and the tree after it.
-/

namespace Scaffold

open Files Text

/-- A choice of layers: all, those in a text with commas, or those in a list. -/
inductive Selection
  /-- Every layer. -/
  | all
  /-- The layers in a text with commas. -/
  | text (names : String)
  /-- The layers in a list. -/
  | list (names : List String)
  deriving DecidableEq, Repr

/-- The names in a choice, as they are written. -/
def Selection.names : Selection → List String
  | all => []
  | text names => (pieces (· == ',') names.toList).map String.ofList
  | list names => names

/-- The names in a choice without blanks around them and in lower case; blank names
do not count. -/
def Selection.wanted (s : Selection) : List String :=
  (s.names.filter (!isBlankText ·)).map fun name => lowered (trimmed name)

/-- The layers that are wanted, in their own order; when no name counts, all are. -/
def selectLayers (layers : List String) (selection : Selection) : List String :=
  match selection.wanted with
  | [] => layers
  | wanted => layers.filter fun layer => wanted.contains (lowered layer)

/-- Generators by layer in lower case. -/
abbrev Generators := List (String × Generator)

namespace Generators

/-- The registry with one more generator, which takes the place of another one for
the same layer. -/
def register (registry : Generators) (generator : Generator) : Generators :=
  Shape.putEntry (lowered generator.layer) generator registry

/-- The registry of some generators, later ones replacing earlier ones. -/
def ofList (generators : List Generator) : Generators :=
  generators.foldl register []

/-- The generator of a layer. -/
def serving (registry : Generators) (layer : String) : Option Generator :=
  registry.lookup (lowered layer)

end Generators

namespace Pipeline

/-- The options that generators see. -/
def optionsFor (mode : Writer.Mode) (options : Named) : Named :=
  Shape.putEntry "force" (.bool mode.force)
    (Shape.putEntry "dry_run" (.bool mode.dryRun) options)

/-- The output of some layers after what has been put out so far, and the tree after
them. -/
def runLayers (root : Path) (mode : Writer.Mode) (registry : Generators) (b : Blueprint)
    (a : Architecture) (options : Named) (output : Output) :
    List String → FileTree → Except (Failure UnknownArchitecture) Output × FileTree
  | [], tree => (.ok output, tree)
  | layer :: layers, tree =>
    match registry.serving layer with
    | none =>
      let warning := "No generator registered for layer '" ++ layer ++ "'."
      runLayers root mode registry b a options
        { output with warnings := output.warnings ++ [warning] } layers tree
    | some generator =>
      match generator.generate b a options with
      | .error cause => (.error (.broken cause), tree)
      | .ok generated =>
        match Writer.writeAll root mode generated.files tree with
        | (.error cause, tree) => (.error (.broken (.ofResolve cause)), tree)
        | (.ok entries, tree) =>
          let stamped := entries.map fun entry => { entry with layer := some layer }
          runLayers root mode registry b a options
            ⟨output.entries ++ stamped, output.warnings ++ generated.warnings⟩ layers tree

/-- The output of the wanted layers of a blueprint, and the tree after it. -/
def generate (architectures : Architectures) (root : Path) (registry : Generators)
    (selection : Selection) (mode : Writer.Mode) (options : Named) (b : Blueprint)
    (tree : FileTree) : Except (Failure UnknownArchitecture) Output × FileTree :=
  match architectures.resolve b.architecture with
  | .error cause => (.error (.refused cause), tree)
  | .ok a =>
    runLayers root mode registry b a (optionsFor mode options) .empty
      (selectLayers a.layers selection) tree

end Pipeline

end Scaffold
