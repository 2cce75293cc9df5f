import Scaffold.Files.Resolve

/-!
Changes of the file tree.

Every operation either fails and leaves the tree alone or gives the changed tree;
only the making of missing directories may stop half-way.

* `read`, `write`, `delete`, `rename`: operations on files.
* `makeDirectory`, `makeDirectories`, `removeTree`: operations on directories.
* `Step`, `perform`, `performAll`: changes one after another.
* `atomicSteps`: fill a temporary file, then give it its final name.
* `atomicWrite`: the steps one after another, and no temporary file on failure.
-/

namespace Scaffold.Files

namespace FileTree

/-! ### Files -/

/-- The contents of the file that a path denotes. -/
def read (tree : FileTree) (path : Path) : Except Fault Bytes := do
  match ← tree.stat path with
  | .file contents => .ok contents
  | .directory => .error .isDirectory
  | .link _ => .error .tooManyLinks

/-- The file of a path gets the given contents; it is created when missing. -/
def write (path : Path) (contents : Bytes) (tree : FileTree) : Except Fault FileTree := do
  let found ← tree.locate true path
  match found.node with
  | some .directory => .error .isDirectory
  | some (.link _) => .error .tooManyLinks
  | _ => .ok (tree.set found.place (.file contents))

/-- The file of a path gets further contents at its end. -/
def append (path : Path) (contents : Bytes) (tree : FileTree) : Except Fault FileTree := do
  let found ← tree.locate true path
  match found.node with
  | some (.file before) => .ok (tree.set found.place (.file (before ++ contents)))
  | some .directory => .error .isDirectory
  | some (.link _) => .error .tooManyLinks
  | none => .error .notFound

/-- The file or link of a path is removed. -/
def delete (path : Path) (tree : FileTree) : Except Fault FileTree := do
  let found ← tree.locate false path
  match found.node with
  | some .directory => .error .isDirectory
  | some _ => .ok (tree.remove found.place)
  | none => .error .notFound

/-- The file of one path gets another name; a file or link of that name is
replaced. -/
def rename (source target : Path) (tree : FileTree) : Except Fault FileTree := do
  let found ← tree.locate false source
  let goal ← tree.locate false target
  match found.node, goal.node with
  | none, _ => .error .notFound
  | some _, some .directory => .error .isDirectory
  | some node, _ => .ok ((tree.remove found.place).set goal.place node)

/-! ### Directories -/

/-- A new directory. -/
def makeDirectory (path : Path) (tree : FileTree) : Except Fault FileTree := do
  let found ← tree.locate false path
  match found.node with
  | some _ => .error .alreadyExists
  | none => .ok (tree.set found.place .directory)

/-- The outcome of making a directory that may be there already. -/
def orPresent (path : Path) (tree : FileTree) : Except Fault FileTree → Option Fault × FileTree
  | .ok changed => (none, changed)
  | .error .notFound => (some .notFound, tree)
  | .error fault =>
    match tree.isDirectory path with
    | .ok true => (none, tree)
    | .ok false => (some fault, tree)
    | .error other => (some other, tree)

/-- The directory of the first `count` names of a path, with all directories that
are missing on the way; directories made before a failure stay. -/
def makeDirectoriesUpTo (path : Path) : Nat → FileTree → Option Fault × FileTree
  | 0, tree => orPresent ⟨path.anchor, []⟩ tree (tree.makeDirectory ⟨path.anchor, []⟩)
  | count + 1, tree =>
    let here : Path := ⟨path.anchor, path.names.take (count + 1)⟩
    match tree.makeDirectory here with
    | .error .notFound =>
      match makeDirectoriesUpTo path count tree with
      | (none, grown) => orPresent here grown (grown.makeDirectory here)
      | failed => failed
    | result => orPresent here tree result

/-- The directory of a path, with all directories that are missing on the way. -/
def makeDirectories (path : Path) (tree : FileTree) : Option Fault × FileTree :=
  makeDirectoriesUpTo path path.names.length tree

/-- The directory of a path is removed with everything in it; anything else is left
alone. -/
def removeTree (path : Path) (tree : FileTree) : FileTree :=
  match tree.locate false path with
  | .ok ⟨place, some .directory⟩ =>
    (tree.below place ++ [place]).foldl (fun rest p => rest.remove p) tree
  | _ => tree

/-- The paths inside the directory of a path. -/
def entriesOf (tree : FileTree) (path : Path) : List Path :=
  match tree.locate true path with
  | .ok found =>
    (tree.children found.place).map fun place =>
      ⟨path.anchor, path.names ++ place.drop found.place.length⟩
  | .error _ => []

/-- The paths inside the directory of a path at any depth; links are not
entered. -/
def allEntriesOf (tree : FileTree) (path : Path) : List Path :=
  match tree.locate true path with
  | .ok found =>
    (tree.below found.place).map fun place =>
      ⟨path.anchor, path.names ++ place.drop found.place.length⟩
  | .error _ => []

end FileTree

/-! ### Steps -/

/-- A change that takes place all at once. -/
inductive Step
  /-- A directory is made, with all directories that are missing on the way. -/
  | ensureDirectory (path : Path)
  /-- A new directory is made. -/
  | makeDirectory (path : Path)
  /-- An empty file is made, or a file emptied. -/
  | create (path : Path)
  /-- Contents are put at the end of a file. -/
  | append (path : Path) (contents : Bytes)
  /-- What has been written is made durable. -/
  | sync (path : Path)
  /-- A file gets its final name. -/
  | replace (source target : Path)
  deriving DecidableEq, Repr

namespace FileTree

/-- The outcome of a change that happens wholly or not at all. -/
def settle (tree : FileTree) : Except Fault FileTree → Option Fault × FileTree
  | .ok changed => (none, changed)
  | .error fault => (some fault, tree)

/-- The tree after a step, and the fault if it fails. -/
def perform (tree : FileTree) : Step → Option Fault × FileTree
  | .ensureDirectory path => tree.makeDirectories path
  | .makeDirectory path => tree.settle (tree.makeDirectory path)
  | .create path => tree.settle (tree.write path [])
  | .append path contents => tree.settle (tree.append path contents)
  | .sync _ => (none, tree)
  | .replace source target => tree.settle (tree.rename source target)

/-- The tree after steps one after another, up to the first that fails. -/
def performAll (tree : FileTree) : List Step → Option Fault × FileTree
  | [] => (none, tree)
  | step :: steps =>
    match tree.perform step with
    | (none, next) => next.performAll steps
    | failed => failed

end FileTree

/-! ### Atomic writes -/

/-- The temporary path beside a final one. -/
def temporaryPath (final : Path) (label token : String) : Path :=
  ⟨final.anchor, final.parent.names ++ ["." ++ label ++ "." ++ token ++ ".tmp"]⟩

/-- The steps that give a file its contents all at once: a temporary file is filled
chunk by chunk, made durable and renamed, and the directory made durable. -/
def atomicSteps (final temporary : Path) (chunks : List Bytes) : List Step :=
  .create temporary :: chunks.map (.append temporary ·)
    ++ [.sync temporary, .replace temporary final, .sync final.parent]

namespace FileTree

/-- The tree without a temporary file, if there is one. -/
def dropTemporary (tree : FileTree) (temporary : Path) : FileTree :=
  match tree.delete temporary with
  | .ok cleaned => cleaned
  | .error _ => tree

/-- A file gets its contents all at once. On failure nothing has changed but the
times. -/
def atomicWrite (final : Path) (contents : Bytes) (label token : String) (tree : FileTree) :
    Option Fault × FileTree :=
  let temporary := temporaryPath final label token
  match tree.performAll (atomicSteps final temporary [contents]) with
  | (none, done) => (none, done)
  | (some fault, left) => (some fault, left.dropTemporary temporary)

end FileTree

end Scaffold.Files
