import Scaffold.History.Store
import Scaffold.Generation.Output

/-!
Rolling back runs.

Changes are undone in the reverse of the order in which they were made: a file
that was written is deleted, and a file that was overwritten gets its old bytes
again. A change that cannot be undone does not stop the others.

* `HistoryStore.select`: the runs to be rolled back.
* `UndoAction`, `planUndo`: what undoes them.
* `UndoOutcome`, `undo`, `undoAll`: what became of every action, and the tree
  after it.
* `UndoReport`: all outcomes together.
-/

namespace Scaffold

open Files Text

/-! ### Selection -/

/-- A text without blanks around it, if anything is left. -/
def filledText (s : Option String) : Option String :=
  (s.map trimmed).filter fun t => !t.isEmpty

/-- The runs to be rolled back, newest first: a named run; or the runs of a named
execution; or the newest run, with the other runs of its execution unless only
the newest is wanted. -/
def HistoryStore.select (store : HistoryStore) (tree : FileTree) (name execution : Option String)
    (latestOnly : Bool) : Except Breakdown (List Run) :=
  match filledText name with
  | some name => (store.run? tree name).map Option.toList
  | none => do
    let runs ← store.runs tree
    let ofExecution (id : String) := runs.filter fun run => run.manifest.executionId == some id
    match runs, filledText execution with
    | [], _ => return []
    | _, some id => return ofExecution id
    | latest :: _, none =>
      match latest.manifest.executionId with
      | none => return [latest]
      | some id => if latestOnly then return [latest] else return ofExecution id

/-! ### Plans -/

/-- What undoes a change. -/
inductive UndoKind
  /-- The file is deleted. -/
  | delete
  /-- The file gets its old bytes again. -/
  | restore
  deriving DecidableEq, Repr

namespace UndoKind

/-- The word for a kind. -/
def word : UndoKind → String
  | delete => "delete"
  | restore => "restore"

/-- All kinds. -/
def every : List UndoKind := [delete, restore]

/-- What undoes a change of some status. -/
def ofStatus? (status : String) : Option UndoKind :=
  match WriteStatus.ofWord? status with
  | some .written => some delete
  | some .overwritten => some restore
  | _ => none

end UndoKind

/-- The undoing of one change. -/
structure UndoAction where
  /-- What is done. -/
  kind : UndoKind
  /-- The name of the run. -/
  runId : String
  /-- The directory of the run. -/
  runPath : Path
  /-- What the run is called in reports. -/
  label : String
  /-- The path of the file, seen from the output root. -/
  path : Option String
  /-- The whole path of the file. -/
  fullPath : Option String
  /-- The name of the file that keeps the old bytes. -/
  backup : Option String
  deriving DecidableEq, Repr

namespace UndoAction

/-- The decoder of kinds. -/
def decodeKind : Shape.Decoder UndoKind :=
  Shape.word (fun s => UndoKind.every.find? (·.word == s)) (UndoKind.every.map (·.word))

/-- The decoder of actions. -/
def decode : Shape.Decoder UndoAction :=
  Shape.strictRecord "RollbackAction"
    ["kind", "run_id", "run_path", "label", "path", "full_path", "backup"] <|
    (((((((Shape.Reading.done fun kind runId runPath label path fullPath backup =>
        UndoAction.mk kind runId (.ofText runPath) label path fullPath backup).apply
      (Shape.required "kind" decodeKind)).apply (Shape.required "run_id" Shape.text)).apply
      (Shape.required "run_path" Shape.path)).apply (Shape.required "label" Shape.text)).apply
      (Shape.absentAsNone "path" Shape.text)).apply
      (Shape.absentAsNone "full_path" Shape.text)).apply (Shape.absentAsNone "backup" Shape.text)

/-- The layout of an action. -/
def toPlain (a : UndoAction) : Json :=
  .object [("kind", .string a.kind.word), ("run_id", .string a.runId),
    ("run_path", .string a.runPath.toText), ("label", .string a.label), ("path", .ofText? a.path),
    ("full_path", .ofText? a.fullPath), ("backup", .ofText? a.backup)]

/-- What undoes a change of a run, if the change has to be undone. -/
def ofChange? (run : Run) (change : ChangeRecord) : Option UndoAction :=
  let label := (run.manifest.blueprint.path.filter fun path => !path.isEmpty).getD run.id
  (UndoKind.ofStatus? change.status).map fun kind =>
    ⟨kind, run.id, run.path, label, change.path, change.fullPath, change.backup⟩

end UndoAction

/-- What undoes a run: its last change first. -/
def undoOf (run : Run) : List UndoAction :=
  run.manifest.entries.reverse.filterMap (UndoAction.ofChange? run)

/-- What undoes runs: the newest run first. -/
def planUndo (tree : FileTree) (runs : List Run) : List UndoAction :=
  (Run.newestFirst tree runs).flatMap undoOf

/-! ### Execution -/

/-- What became of an action. -/
inductive UndoStatus
  /-- The file was deleted. -/
  | deleted
  /-- The file has its old bytes again. -/
  | restored
  /-- There was nothing to do. -/
  | skipped
  /-- The change could not be undone. -/
  | error
  /-- Nothing was to be done. -/
  | planned
  deriving DecidableEq, Repr

namespace UndoStatus

/-- The word for a status. -/
def word : UndoStatus → String
  | deleted => "deleted"
  | restored => "restored"
  | skipped => "skipped"
  | error => "error"
  | planned => "planned"

/-- All statuses. -/
def every : List UndoStatus := [deleted, restored, skipped, error, planned]

end UndoStatus

/-- What became of an action, and why. -/
structure UndoOutcome where
  /-- The action. -/
  action : UndoAction
  /-- What became of it. -/
  status : UndoStatus
  /-- The same in words. -/
  detail : String
  deriving DecidableEq, Repr

/-- The members of an outcome. -/
def UndoOutcome.toPlain (o : UndoOutcome) : Json :=
  .object [("status", .string o.status.word), ("detail", .string o.detail),
    ("kind", .string o.action.kind.word), ("run_id", .string o.action.runId),
    ("path", .ofText? o.action.path)]

/-- A text between single quotes. -/
def inQuotes (s : String) : String := "'" ++ s ++ "'"

/-- The first of two texts that is there and not empty. -/
def firstFilled (a b : Option String) : Option String :=
  (a.filter fun s => !s.isEmpty).or b

/-- The outcome of an action when nothing is to be done. -/
def preview (action : UndoAction) : UndoOutcome :=
  let name := (firstFilled action.fullPath action.path).getD "None"
  ⟨action, .planned, "Would " ++ action.kind.word ++ " " ++ inQuotes name ++ "."⟩

/-- A file that was written is deleted. -/
def undoWriting (action : UndoAction) (target : Path) (tree : FileTree) :
    Except Fault UndoOutcome × FileTree :=
  let name := inQuotes target.toText
  match tree.isFile target with
  | .error fault => (.error fault, tree)
  | .ok false => (.ok ⟨action, .skipped, name ++ " no longer exists."⟩, tree)
  | .ok true =>
    match tree.delete target with
    | .error fault =>
      (.ok ⟨action, .error, "Could not delete " ++ name ++ ": " ++ fault.message⟩, tree)
    | .ok changed => (.ok ⟨action, .deleted, "Deleted " ++ name ++ "."⟩, changed)

/-- A file gets contents, in a directory that is made when it is missing. -/
def putBack (target : Path) (contents : Bytes) (token : String) (tree : FileTree) :
    Option Fault × FileTree :=
  match tree.makeDirectories target.parent with
  | (some fault, grown) => (some fault, grown)
  | (none, grown) => grown.atomicWrite target contents "restore" token

/-- A file that was overwritten gets its old bytes again. -/
def undoOverwriting (action : UndoAction) (target : Path) (token : String) (tree : FileTree) :
    Except Fault UndoOutcome × FileTree :=
  let name := inQuotes target.toText
  let failed (detail : String) : Except Fault UndoOutcome := .ok ⟨action, .error, detail⟩
  match action.backup.filter fun s => !s.isEmpty with
  | none => (failed ("No backup for " ++ name ++ "."), tree)
  | some backup =>
    let source := action.runPath.child backup
    match tree.read source with
    | .error .zeroCharacter => (.error .zeroCharacter, tree)
    | .error .notFound => (failed ("Backup not found " ++ inQuotes source.toText ++ "."), tree)
    | .error fault =>
      (failed ("Could not read backup " ++ inQuotes source.toText ++ ": " ++ fault.message), tree)
    | .ok contents =>
      match putBack target contents token tree with
      | (some .zeroCharacter, left) => (.error .zeroCharacter, left)
      | (some fault, left) =>
        (failed ("Could not restore " ++ name ++ ": " ++ fault.message), left)
      | (none, done) => (.ok ⟨action, .restored, "Restored " ++ name ++ "."⟩, done)

/-- The outcome of an action, and the tree after it; `token` is a name that no
temporary file has. -/
def undo (action : UndoAction) (token : String) (tree : FileTree) :
    Except Fault UndoOutcome × FileTree :=
  match action.fullPath.filter fun s => !s.isEmpty with
  | none =>
    let name := (firstFilled action.path none).getD "unknown"
    (.ok ⟨action, .error, "No path recorded for " ++ inQuotes name ++ "."⟩, tree)
  | some path =>
    match action.kind with
    | .delete => undoWriting action (.ofText path) tree
    | .restore => undoOverwriting action (.ofText path) token tree

/-- The outcomes of actions one after another, and the tree after them; a path that
cannot be looked at ends the work. -/
def undoAll (token : String) :
    List UndoAction → FileTree → Except Fault (List UndoOutcome) × FileTree
  | [], tree => (.ok [], tree)
  | action :: actions, tree =>
    match undo action token tree with
    | (.error fault, tree) => (.error fault, tree)
    | (.ok outcome, tree) =>
      let (outcomes, tree) := undoAll token actions tree
      (outcomes.map (outcome :: ·), tree)

/-! ### Reports -/

/-- The outcomes of some actions. -/
structure UndoReport where
  /-- The outcomes, in order. -/
  outcomes : List UndoOutcome
  /-- Whether nothing was to be done. -/
  dryRun : Bool
  deriving DecidableEq, Repr

namespace UndoReport

/-- The report of actions of which none is carried out. -/
def planned (actions : List UndoAction) : UndoReport :=
  ⟨actions.map preview, true⟩

/-- The number of outcomes with a status. -/
def count (report : UndoReport) (status : UndoStatus) : Nat :=
  (report.outcomes.filter (·.status == status)).length

/-- Whether a change could not be undone. -/
def hasErrors (report : UndoReport) : Bool :=
  report.count .error > 0

/-- The members of a report. -/
def members (report : UndoReport) : List (String × Json) :=
  [("outcomes", .array (report.outcomes.map UndoOutcome.toPlain)),
   ("counts", .object (UndoStatus.every.map fun status => (status.word, .int (report.count status)))),
   ("dry_run", .bool report.dryRun)]

/-- Names without later repeats. -/
def distinct (names : List String) : List String :=
  names.foldl (fun found name => if found.contains name then found else found ++ [name]) []

/-- The names of the runs, in the order of their first outcomes. -/
def runIds (report : UndoReport) : List String :=
  distinct (report.outcomes.map (·.action.runId))

end UndoReport

end Scaffold
