import Scaffold.Bytes.Unique
import Scaffold.Commands.Layout
import Scaffold.Commands.Program
import Std.Time.DateTime.Timestamp

/-!
The command line.

The file tree is read from the disk, the program is run on it, and what has changed
is written back.

* `Disk.capture`: the nodes below a directory.
* `Disk.apply`: the changes between two trees.
* `converse`: a run of the program in which questions are answered from standard
  input.
* `main`: the entry point.
-/

namespace Scaffold

open Files

/-! ### The disk -/

namespace Disk

/-- The place of an absolute path. -/
def placeOf (path : String) : Place :=
  (Path.ofText path).names

/-- A tree in which a directory and all those around it are there. -/
def withDirectory (place : Place) (tree : FileTree) : FileTree :=
  ((List.range place.length).map fun n => place.take (n + 1)).foldl (fun tree p =>
    if (tree.node? p).isSome then tree else tree.set p .directory) tree

/-- A tree with a node and the time of its last change. -/
def withNode (place : Place) (node : Node) (time : Int) (tree : FileTree) : FileTree :=
  (tree.set place node).setTime place time

/-- A tree with everything below a directory; what cannot be read is passed over. -/
partial def capture (directory : String) (tree : FileTree) : IO FileTree := do
  let root ← IO.FS.realPath directory
  let mut tree := withDirectory (placeOf root.toString) tree
  for entry in ← root.readDir do
    let path := entry.path.toString
    let place := placeOf path
    let data ← entry.path.symlinkMetadata
    let ⟨seconds, nanoseconds⟩ := data.modified
    let time := seconds * 1000000000 + nanoseconds.toNat
    match data.type with
    | .dir => tree := withNode place .directory time (← capture path tree)
    | .file =>
      let contents ← IO.FS.readBinFile path
      tree := withNode place (.file contents.toList) time tree
    | .symlink =>
      let target ← try
          let target ← IO.FS.realPath path
          pure target.toString
        catch _ => pure path
      tree := withNode place (.link target) time tree
    | .other => pure ()
  return tree

/-- A tree with everything below a directory, if it is there and not part of the tree
already. -/
def reach (directory : Path) (tree : FileTree) : IO FileTree := do
  match tree.stat directory with
  | .ok _ => return tree
  | .error _ =>
    try capture directory.toText tree
    catch _ => return tree

/-- A tree with a single file, if it is there and not part of the tree already. -/
def reachFile (file : Path) (tree : FileTree) : IO FileTree := do
  match tree.stat file with
  | .ok _ => return tree
  | .error _ =>
    try
      let contents ← IO.FS.readBinFile file.toText
      let place := placeOf (← IO.FS.realPath file.toText).toString
      return (withDirectory place.dropLast tree).set place (.file contents.toList)
    catch _ => return tree

/-- The changes from one tree to another are made on the disk. -/
def apply (before after : FileTree) : IO Unit := do
  for entry in before.nodes do
    if (after.node? entry.1).isNone then
      match entry.2 with
      | .directory => IO.FS.removeDirAll entry.1.toPath.toText
      | _ => IO.FS.removeFile entry.1.toPath.toText
  for entry in after.nodes do
    if before.node? entry.1 != some entry.2 then
      match entry.2 with
      | .directory => IO.FS.createDirAll entry.1.toPath.toText
      | .file contents =>
        IO.FS.writeBinFile entry.1.toPath.toText (ByteArray.mk contents.toArray)
      | .link _ => pure ()

end Disk

/-! ### The surroundings -/

/-- What the program finds when it starts. -/
def circumstances : IO Circumstances := do
  let seed := (← IO.getRandomBytes 16).toList
  let now ← Std.Time.Timestamp.now
  let start := now.toNanosecondsSinceUnixEpoch.toInt / 1000
  let environment ← [enabledVariable, pathVariable, "HOME"].filterMapM fun name => do
    return (← IO.getEnv name).map fun value => (name, value)
  let accounts ← try IO.FS.lines "/etc/passwd" catch _ => pure #[]
  let others := Homes.accounts accounts.toList
  let own := (environment.lookup "HOME").getD ((others.lookup "root").getD "/")
  return {
    environment
    homes := ⟨own, others⟩
    executionId := Unique.nameAt seed 0
    surroundings := fun n =>
      let time := start + n
      ⟨.ofMicroseconds time, .ofMicroseconds time, .ofRatio false time.toNat 1000000,
        Unique.nameAt seed (n + 1), Unique.tokenAt seed (n + 1)⟩ }

/-- The tree that the program needs: the working directory and what the configuration
names. -/
def workingTree (given : Circumstances) (arguments : List String) : IO FileTree := do
  let here := (← IO.currentDir).toString
  let tree ← Disk.capture here (.empty (Disk.placeOf here))
  let file := ((Invocation.ofArguments? arguments).bind (·.configuration)).map Path.ofText
  let tree ← match file with
    | some path => Disk.reachFile path tree
    | none => pure tree
  match Configuration.load tree given.environment given.homes tree.workplace.toPath file with
  | .error _ => return tree
  | .ok c =>
    let tree ← Disk.reach c.locations.blueprints tree
    Disk.reach c.history.path (← Disk.reach c.locations.output tree)

/-! ### The conversation -/

/-- A run of the program with the answers given so far; `shown` emissions have been shown
before. A question without an answer is put to the user, and the run is repeated. -/
partial def converse (given : Circumstances) (arguments : List String) (tree : FileTree)
    (answers : List String) (shown : Nat) : IO (Ending × Terminal) := do
  let (ending, terminal) := Program.run given arguments ⟨tree, [], answers⟩
  for emission in terminal.emissions.drop shown do
    IO.print emission.laidOut
  (← IO.getStdout).flush
  if ending != .unanswered then return (ending, terminal)
  let line ← (← IO.getStdin).getLine
  if line.isEmpty then return (ending, terminal)
  let answer := ((linesOf line).head?).getD ""
  converse given arguments tree (answers ++ [answer]) terminal.emissions.length

/-- The command line of the program. -/
def runProgram (arguments : List String) : IO UInt32 := do
  let given ← circumstances
  let tree ← workingTree given arguments
  let (ending, terminal) ← converse given arguments tree [] 0
  Disk.apply tree terminal.tree
  match ending with
  | .misused =>
    IO.eprintln "usage: scaffold (validate | list | generate | history | rollback) [OPTION ...]"
  | .unanswered => IO.eprintln "Aborted."
  | .broken cause => IO.eprintln cause.message
  | .finished _ => pure ()
  return ending.code.toUInt32

end Scaffold

/-- The entry point. -/
def main (arguments : List String) : IO UInt32 :=
  Scaffold.runProgram arguments
