import Scaffold.Breakdown
import Scaffold.Files.Change
import Scaffold.History.Run
import Scaffold.Json.Reader

/-!
The store of runs: a directory with one directory for each run.

A run is there when its directory holds a manifest that can be read; anything
else in the store is passed over.

* `HistoryStore`: where the runs are, and whether they are kept at all.
* `loadRun?`: the run of a directory.
* `HistoryStore.runs`: all runs, newest first.
* `HistoryStore.run?`: the run in the directory of a name.
-/

namespace Scaffold

open Files Text

/-- Where runs are kept. -/
structure HistoryStore where
  /-- The directory of all runs, as written. -/
  location : String
  /-- Whether runs are kept. -/
  enabled : Bool
  deriving DecidableEq, Repr

namespace HistoryStore

/-- Whether runs are kept and the directory has a name. -/
def isEnabled (store : HistoryStore) : Bool :=
  store.enabled && !isBlankText store.location

/-- The directory of all runs, if runs are kept. -/
def root? (store : HistoryStore) : Option Path :=
  if store.isEnabled then some (.ofText (trimmed store.location)) else none

end HistoryStore

/-! ### Reading a run -/

/-- The members of a manifest file, with an empty list of changes where there is no
list, and the name of the directory where there is no name. -/
def completed (directory : String) (members : List (String × Json)) : List (String × Json) :=
  let listed := match Json.get? "entries" (.object members) with
    | some (.array _) => members
    | _ => Json.setMember "entries" (.array []) members
  match Json.get? "id" (.object listed) with
  | some _ => listed
  | none => Json.setMember "id" (.string directory) listed

/-- The manifest in a text, if there is one. -/
def manifestOf? (directory text : String) : Except Breakdown (Option Manifest) :=
  match Json.parse text with
  | .error .malformed => .ok none
  | .error .tooDeep => .error .deepJson
  | .error .hugeInteger => .error .hugeInteger
  | .ok (.object members) =>
    .ok (Manifest.decode (.ofJson (.object (completed directory members)))).toOption
  | .ok _ => .ok none

/-- The run of a directory, if it holds a manifest that can be read. -/
def loadRun? (tree : FileTree) (path : Path) : Except Breakdown (Option Run) :=
  match tree.read (path.child Manifest.fileName) with
  | .error _ => .ok none
  | .ok contents =>
    match Utf8.decode? contents with
    | none => .ok none
    | some text => (manifestOf? path.name text).map fun found =>
      found.map fun manifest => ⟨manifest.id, path, manifest⟩

/-! ### Reading the store -/

namespace HistoryStore

/-- The runs of the directories among some paths. -/
def runsAmong (tree : FileTree) : List Path → Except Breakdown (List Run)
  | [] => .ok []
  | path :: paths => do
    if ← (tree.isDirectory path).mapError .file then
      match ← loadRun? tree path with
      | some run => return run :: (← runsAmong tree paths)
      | none => runsAmong tree paths
    else runsAmong tree paths

/-- All runs, newest first. -/
def runs (store : HistoryStore) (tree : FileTree) : Except Breakdown (List Run) :=
  match store.root? with
  | none => .ok []
  | some root => do
    if ← (tree.isDirectory root).mapError .file then
      return Run.newestFirst tree (← runsAmong tree (tree.entriesOf root))
    else return []

/-- The newest run. -/
def latest? (store : HistoryStore) (tree : FileTree) : Except Breakdown (Option Run) := do
  return (← store.runs tree).head?

/-- Whether a text can be the name of a directory in the store. -/
def isName (name : String) : Bool :=
  name != "" && name != "." && name != ".." && !name.toList.any fun c => c == '/' || c == '\\'

/-- The run in the directory of a name, blanks around it left out. -/
def run? (store : HistoryStore) (tree : FileTree) (name : String) :
    Except Breakdown (Option Run) := do
  let name := trimmed name
  if !isName name then return none
  else match store.root? with
    | none => return none
    | some root =>
      let path := root.child name
      if ← (tree.isDirectory path).mapError .file then loadRun? tree path else return none

end HistoryStore

end Scaffold
