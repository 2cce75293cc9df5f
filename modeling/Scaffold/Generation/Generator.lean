import Scaffold.Breakdown
import Scaffold.Generation.Architecture
import Scaffold.Generation.Output
import Scaffold.Json.Printer
import Scaffold.Text.Naming
import Scaffold.Text.Quoted

/-!
Generators: what makes the files of a layer.

* `Generator`: a layer with a function from a blueprint to files and warnings.
* `snapshot`: the generator that writes the blueprint itself, as canonical JSON.
* `ImportFault`: why no generator stands behind a name.
* `Generator.load`, `Generator.loadAll`: the generators behind names of the form
  `module:attribute`.
-/

namespace Scaffold

/-- Files and warnings that a generator gives. -/
structure Generated where
  /-- The files, in order. -/
  files : List GeneratedFile
  /-- What deserves attention. -/
  warnings : List String
  deriving DecidableEq, Repr

/-- What makes the files of a layer from a blueprint, its architecture and options. -/
structure Generator where
  /-- The layer. -/
  layer : String
  /-- The files of a blueprint, if nothing breaks down. -/
  generate : Blueprint → Architecture → Named → Except Breakdown Generated

/-! ### Snapshots -/

/-- The directory of snapshots below the output root. -/
def snapshotDirectory : String := ".blueprintx/snapshots"

/-- The path of a snapshot. -/
def snapshotPath (b : Blueprint) : String :=
  let directory := match b.modulePath with
    | none => "global"
    | some path => if path.isEmpty then "global" else path
  snapshotDirectory ++ "/" ++ directory ++ "/" ++ Text.snake b.entity ++ ".json"

/-- The contents of a snapshot: the architecture and the blueprint as canonical JSON,
indented by two, with a final line break. -/
def snapshotContents (b : Blueprint) (a : Architecture) : Except Breakdown Bytes := do
  let plain ← b.toPlain.mapError .plain
  let whole := Json.object [("architecture", .string a.name), ("blueprint", plain)]
  -- A plain form holds no infinite number, so only an integer can be without text.
  match whole.canonical? (some 2) with
  | none => .error .hugeInteger
  | some bytes => return bytes ++ Utf8.encode "\n"

/-- The generator that writes the blueprint itself. -/
def Generator.snapshot : Generator where
  layer := "snapshot"
  generate b a _ := do return ⟨[⟨snapshotPath b, ← snapshotContents b a, false⟩], []⟩

/-! ### Names of generators -/

/-- Why no generator stands behind a name. -/
inductive ImportFault
  /-- The name does not have two parts. -/
  | form (name : String)
  /-- The module is not there. -/
  | noModule (modulePath : String)
  /-- The module has nothing of that name. -/
  | noMember (modulePath member : String)
  /-- What stands behind the name is no generator. -/
  | noGenerator (name : String)
  /-- The generator belongs to another layer. -/
  | otherLayer (name layer expected : String)
  deriving DecidableEq, Repr

/-- The fault in words. -/
def ImportFault.message : ImportFault → String
  | form name => "Generator " ++ Text.quoted name ++ " must look like 'package.module:attribute'."
  | noModule path => "Failed to import generator module " ++ Text.quoted path
      ++ ": No module named " ++ Text.quoted path
  | noMember path member => "Generator module " ++ Text.quoted path ++ " has no attribute "
      ++ Text.quoted member ++ "."
  | noGenerator name =>
    "Generator " ++ Text.quoted name ++ " must define 'layer' and 'generate()'."
  | otherLayer name layer expected => "Generator " ++ Text.quoted name ++ " serves layer "
      ++ Text.quoted layer ++ ", not " ++ Text.quoted expected ++ "."

namespace Generator

/-- The module of the generators that are built in. -/
def builtInModule : String := "blueprintx.kernel.generators"

/-- What the module of built-in generators holds: generators, and names of other
things. -/
def builtIn : List (String × Option Generator) :=
  [("SnapshotLayerGenerator", some snapshot), ("SNAPSHOT_DIRECTORY", none),
   ("load_generator", none)]

/-- The two parts of a name around its first colon. -/
def nameParts (name : String) : String × String :=
  let cs := name.toList
  (String.ofList (cs.takeWhile (· != ':')), String.ofList ((cs.dropWhile (· != ':')).drop 1))

/-- The generator behind a name. -/
def load (name : String) : Except (Failure ImportFault) Generator :=
  let (path, member) := nameParts name
  if path.isEmpty || member.isEmpty then .error (.refused (.form name))
  else if path.startsWith "." then .error (.broken .relativeModule)
  else if path != builtInModule then .error (.refused (.noModule path))
  else match builtIn.lookup member with
    | none => .error (.refused (.noMember path member))
    | some none => .error (.refused (.noGenerator name))
    | some (some generator) => .ok generator

/-- The generators behind names, each of which is to serve the layer in front of
it; the first fault ends the loading. -/
def loadAll : List (String × String) → Except (Failure ImportFault) (List Generator)
  | [] => .ok []
  | (layer, name) :: names => do
    let generator ← load name
    if !Text.sameFolded generator.layer layer then
      .error (.refused (.otherLayer name generator.layer layer))
    else return generator :: (← loadAll names)

end Generator

end Scaffold
