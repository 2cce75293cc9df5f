import Scaffold.Files.Change
import Scaffold.Generation.Output

/-!
Writing generated files.

A file is written below the output root only, links resolved. An existing file
with other contents is replaced only when this is allowed, and its old contents
are kept in the entry.

* `relativeText`: the path of a file, seen from the output root.
* `existing`: the contents of a file before the writing.
* `write`, `writeAll`: the entries of files and the tree after them.
-/

namespace Scaffold

open Files

namespace Writer

/-- Whether and how files are written. -/
structure Mode where
  /-- Whether nothing is written at all. -/
  dryRun : Bool
  /-- Whether every existing file may be replaced. -/
  force : Bool
  deriving DecidableEq, Repr

/-- The path of a file with slashes between names and none in front. -/
def relativeText (path : String) : String :=
  String.ofList ((path.toList.map fun c => if c == '\\' then '/' else c).dropWhile (· == '/'))

/-- Whether a path stays below a root when links are resolved. -/
def isBelow (root target : Path) (tree : FileTree) : Except ResolveFault Bool := do
  let place ← tree.resolve target
  let top ← tree.resolve root
  return (Path.after? top place).isSome

/-- The contents of a file before the writing, if it is there. -/
def existing (target : Path) (tree : FileTree) : Except Fault (Option Bytes) := do
  if ← tree.isFile target then return some (← tree.read target)
  else return none

/-- The entry of a file whose contents are written, and the tree after that. -/
def place (target : Path) (contents : Bytes) (previous : Option Bytes) (relative : String)
    (tree : FileTree) : OutputEntry × FileTree :=
  let entry (status : WriteStatus) := OutputEntry.bare status relative target.toText
  match tree.makeDirectories target.parent with
  | (some fault, grown) =>
    ((entry .error).because ("Could not create directory '" ++ target.parent.toText ++ "': "
      ++ fault.message), grown)
  | (none, grown) =>
    match grown.write target contents with
    | .error fault => ((entry .error).because ("Could not write file: " ++ fault.message), grown)
    | .ok written =>
      match previous with
      | none => ((entry .written).withContents contents, written)
      | some before =>
        (((entry .overwritten).withContents contents).withPrevious before, written)

/-- The entry of a file whose target lies below the root, and the tree after it. -/
def writeAt (target : Path) (relative : String) (mode : Mode) (file : GeneratedFile)
    (tree : FileTree) : OutputEntry × FileTree :=
  let entry (status : WriteStatus) := OutputEntry.bare status relative target.toText
  if mode.dryRun then
    ({ entry .preview with preview := some (Utf8.decodeLossy file.contents) }, tree)
  else match existing target tree with
    | .error fault =>
      ((entry .error).because ("Could not read existing file: " ++ fault.message), tree)
    | .ok previous =>
      if previous = some file.contents then ((entry .skipped).because "unchanged", tree)
      else if previous.isSome && !(mode.force || file.overwrite) then
        ((entry .skipped).because "File already exists. Use --force to overwrite.", tree)
      else place target file.contents previous relative tree

/-- The entry of a file below a root, and the tree after it. -/
def write (root : Path) (mode : Mode) (file : GeneratedFile) (tree : FileTree) :
    Except ResolveFault OutputEntry × FileTree :=
  let relative := relativeText file.path
  let target := root.child relative
  match isBelow root target tree with
  | .error fault => (.error fault, tree)
  | .ok false =>
    (.ok ((OutputEntry.bare .error relative target.toText).because
      "Path escapes the output directory."), tree)
  | .ok true =>
    let (entry, changed) := writeAt target relative mode file tree
    (.ok entry, changed)

/-- The entries of files below a root, and the tree after them; a path that cannot
be resolved ends the writing. -/
def writeAll (root : Path) (mode : Mode) :
    List GeneratedFile → FileTree → Except ResolveFault (List OutputEntry) × FileTree
  | [], tree => (.ok [], tree)
  | file :: files, tree =>
    match write root mode file tree with
    | (.error fault, tree) => (.error fault, tree)
    | (.ok entry, tree) =>
      let (entries, tree) := writeAll root mode files tree
      (entries.map (entry :: ·), tree)

end Writer

end Scaffold
