import Scaffold.Blueprint.Normalize
import Scaffold.Files.TextFile
import Scaffold.Yaml.Reading

/-!
Blueprints in files.

A blueprint is read from a YAML file below a root. A file that gives no blueprint
does not keep others from being read.

* `BlueprintReader`: the settings and the root.
* `BlueprintReader.find`: the file that a path denotes.
* `BlueprintReader.read`: the blueprint of a file.
* `BlueprintReader.readAll`: the outcomes of some files, in their order.
-/

namespace Scaffold

open Files

/-- What is needed to read blueprints. -/
structure BlueprintReader where
  /-- What shapes the blueprints. -/
  settings : Settings
  /-- The directory from which relative paths start, if it is not the one of the
  settings. -/
  lookup : Option Path

namespace BlueprintReader

/-- The directory from which relative paths start. -/
def root? (reader : BlueprintReader) : Option Path :=
  reader.lookup.or reader.settings.root

/-- The file that a path denotes, links resolved. -/
def find (reader : BlueprintReader) (tree : FileTree) (path : Path) :
    Except (Failure BlueprintFault) Path := do
  let candidate := match reader.root? with
    | some root => root.join path
    | none => path
  if !(← (tree.isFile candidate).mapError fun fault => .broken (.file fault)) then
    throw (.refused (.notFound path.toText))
  let place ← (tree.resolve candidate).mapError fun fault => .broken (.ofResolve fault)
  return place.toPath

/-- The blueprint of a file, the path of which is written as given in reports. -/
def read (reader : BlueprintReader) (tree : FileTree) (path : String) :
    Except (Failure BlueprintFault) Blueprint := do
  let full ← reader.find tree (.ofText path)
  let text ← (tree.readText full).mapError fun fault =>
    .refused (.unreadable path full.toText fault.message)
  let document ← (Yaml.read text).mapError (.ofYaml (.unparsable path full.toText))
  match document with
  | .mapping _ => normalize tree reader.settings document full.toText
  | _ => throw (.refused (.noStructure path full.toText))

/-- The outcomes of some files, in their order; only a breakdown ends the work. -/
def readAll (reader : BlueprintReader) (tree : FileTree) :
    List String → Except Breakdown (List (String × Except BlueprintFault Blueprint))
  | [] => .ok []
  | path :: paths => do
    let outcome ← match reader.read tree path with
      | .ok b => pure (.ok b)
      | .error (.refused fault) => pure (.error fault)
      | .error (.broken breakdown) => throw breakdown
    return (path, outcome) :: (← readAll reader tree paths)

end BlueprintReader

end Scaffold
