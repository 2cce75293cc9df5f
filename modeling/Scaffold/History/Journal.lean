import Scaffold.Blueprint.Fault
import Scaffold.Blueprint.Reading
import Scaffold.Generation.Output
import Scaffold.History.Store
import Scaffold.Json.Printer
import Scaffold.Text.Naming

/-!
Recording runs.

A run gets a directory of its own. The bytes that were replaced go there first,
each in a file of its own, and the manifest comes last, so a run without its
manifest has never taken place. When anything fails, the directory is removed.

* `backupName`: the name of the file that keeps replaced bytes.
* `Surroundings`: what a recording takes from outside: names and times.
* `runName`: the name of a new run.
* `RunContext`: what is known about the execution.
* `Recording`: the steps that record a run; `recordingOf` gives them for an output.
* `Journal.record`: a run recorded in a file tree.
-/

namespace Scaffold

open Files Text

/-! ### Names -/

/-- A number with zeros in front, at least three characters with its sign. -/
def threeDigits (n : Int) : String :=
  let digits := Number.Binary64.digitsOf n.natAbs
  String.ofList (if n < 0 then '-' :: Number.Binary64.padded 2 digits
    else Number.Binary64.padded 3 digits)

/-- The slug of a text, or another text when it is empty. -/
def slugOr (s other : String) : String :=
  let result := slug s
  if result.isEmpty then other else result

/-- The last name in a path, slashes and backslashes alike. -/
def lastName (path : String) : String :=
  (Path.ofText (String.ofList (path.toList.map fun c => if c == '\\' then '/' else c))).name

/-- The name of the file that keeps the bytes which the change with an index
replaced. -/
def backupName (path : Option String) (index : Int) : String :=
  threeDigits (index + 1) ++ "-" ++ slugOr (path.elim "" lastName) "file" ++ ".bak"

/-- What a recording takes from outside. -/
structure Surroundings where
  /-- The time at which the recording starts. -/
  started : Calendar.Moment
  /-- The time that the manifest shows. -/
  recorded : Calendar.Moment
  /-- The reading of the clock in seconds. -/
  clock : Number.Binary64
  /-- A name that no other run has. -/
  unique : String
  /-- A name that no other temporary file has. -/
  token : String
  deriving Repr

/-- The name of a new run: the time, the module, the entity and a unique name. -/
def runName (s : Surroundings) (b : Blueprint) : String :=
  s.started.compact ++ "-" ++ slugOr (b.modulePath.getD "") "global" ++ "-"
    ++ slugOr b.entity "entity" ++ "-" ++ s.unique

/-! ### The context -/

/-- What is known about the execution to which a run belongs. -/
structure RunContext where
  /-- The name of the execution. -/
  executionId : Option String
  /-- Its options. -/
  options : Named
  /-- Its filters. -/
  filters : Named
  /-- The warnings of the run. -/
  warnings : List String
  deriving BEq, Repr

/-- The value of a key, if it counts as something. -/
def filledMember (key : String) (entries : List (Document × Document)) : Option Document :=
  (Document.lookup key entries).filter fun d => !isVoid d

namespace RunContext

/-- The mapping that a member stands for. -/
def mappingOf (member : Option Document) : Except LayoutFault Document :=
  match member with
  | none => .ok (.mapping [])
  | some d => (entriesOf d).map .mapping

/-- The list that a member stands for. -/
def listFor (member : Option Document) : Except LayoutFault Document :=
  match member with
  | none => .ok (.list [])
  | some d => (partsOf? d).elim (.error .kind) fun parts => .ok (.list parts)

/-- The decoder of contexts. -/
def decode : Shape.Decoder RunContext :=
  Shape.record "RunManifest" <|
    ((((Shape.Reading.done RunContext.mk).apply
      (Shape.absentAsNone "execution_id" Shape.text)).apply
      (Shape.required "options" (Shape.dictOf Shape.anything))).apply
      (Shape.required "filters" (Shape.dictOf Shape.anything))).apply
      (Shape.required "warnings" (Shape.listOf Shape.text))

/-- The context that a mapping describes. Options, filters and warnings may be
anything from which a mapping or a list can be made. -/
def ofEntries (entries : List (Document × Document)) : Except LayoutFault RunContext := do
  let options ← mappingOf (filledMember "options" entries)
  let filters ← mappingOf (filledMember "filters" entries)
  let warnings ← listFor (filledMember "warnings" entries)
  let members := [("execution_id", (Document.lookup "execution_id" entries).getD .null),
    ("options", options), ("filters", filters), ("warnings", warnings)]
  match decode (.record members) with
  | .ok context => return context
  | .error violations => throw (.violations "RunManifest" violations)

end RunContext

/-! ### Recordings -/

/-- Why no run is recorded. -/
inductive RecordFault
  /-- No runs are kept. -/
  | disabled
  /-- The output tree was not changed. -/
  | unchanged
  /-- The context cannot be read. -/
  | context (fault : LayoutFault)
  /-- The manifest has no plain form. -/
  | plain (fault : PlainError)
  /-- The manifest holds an integer with too many digits. -/
  | hugeInteger
  /-- A file or directory cannot be made. -/
  | files (fault : Fault)
  deriving Repr

/-- The fault in words. -/
def RecordFault.message : RecordFault → String
  | disabled => "history is disabled"
  | unchanged => "no written or overwritten files"
  | context .kind => "history write failed: a part of the context has the wrong kind"
  | context .length => "history write failed: a part of the context has the wrong length"
  | context (.violations record violations) =>
    "history write failed: " ++ Shape.report record violations
  | plain fault => "history write failed: " ++ (Breakdown.plain fault).message
  | hugeInteger => "history write failed: " ++ Breakdown.hugeInteger.message
  | files fault => "history write failed: " ++ fault.message

/-- The record of the journaled entry with an index. -/
def recordOf (index : Nat) (entry : OutputEntry) : ChangeRecord :=
  let replaced := entry.status == .overwritten
  { status := entry.status.word
    layer := entry.layer
    path := some entry.path
    fullPath := some entry.fullPath
    size := entry.size
    checksum := entry.checksum
    previousSize := if replaced then entry.previousSize else none
    previousChecksum := if replaced then entry.previousChecksum else none
    backup := if replaced && entry.previousContents.isSome then
      some (backupName (some entry.path) index) else none }

/-- The records of journaled entries from an index on. -/
def recordsFrom (index : Nat) : List OutputEntry → List ChangeRecord
  | [] => []
  | entry :: entries => recordOf index entry :: recordsFrom (index + 1) entries

/-- The steps that keep the replaced bytes of journaled entries from an index on. -/
def backupSteps (directory : Path) (token : String) (index : Nat) : List OutputEntry → List Step
  | [] => []
  | entry :: entries =>
    let later := backupSteps directory token (index + 1) entries
    match entry.status, entry.previousContents with
    | .overwritten, some contents =>
      let final := directory.child (backupName (some entry.path) index)
      atomicSteps final (temporaryPath final "backup" token) [contents] ++ later
    | _, _ => later

/-- What records a run. -/
structure Recording where
  /-- The name of the run. -/
  id : String
  /-- The directory of the run. -/
  directory : Path
  /-- The changes of the file tree, in order. -/
  steps : List Step
  /-- Why the run is given up after these changes. -/
  refusal : Option RecordFault
  deriving Repr

/-- The manifest of a run. -/
def manifestFor (s : Surroundings) (sequence : Number.Binary64) (context : RunContext)
    (b : Blueprint) (relative : String) (entries : List OutputEntry) : Manifest where
  id := runName s b
  timestamp := some s.recorded.renderNumeric
  sequence := some sequence
  executionId := context.executionId
  blueprint := ⟨b.modulePath, some b.entity, some b.architecture, some relative⟩
  options := context.options
  filters := context.filters
  warnings := context.warnings
  entries := recordsFrom 0 entries

/-- The bytes of a manifest in its file. -/
def Manifest.fileBytes (m : Manifest) : Except RecordFault Bytes :=
  match m.toPlain with
  | .error fault => .error (.plain fault)
  | .ok plain =>
    if plain.integersFit then .ok (Utf8.encode plain.document) else .error .hugeInteger

/-- The recording of journaled entries below a root. -/
def recordingOf (root : Path) (s : Surroundings) (sequence : Number.Binary64)
    (context : List (Document × Document)) (b : Blueprint) (relative : String)
    (entries : List OutputEntry) : Recording :=
  let id := runName s b
  let directory := root.child id
  let prepared := [.ensureDirectory root, .makeDirectory directory]
    ++ backupSteps directory s.token 0 entries
  match RunContext.ofEntries context with
  | .error fault => ⟨id, directory, prepared, some (.context fault)⟩
  | .ok context =>
    match (manifestFor s sequence context b relative entries).fileBytes with
    | .error fault => ⟨id, directory, prepared, some fault⟩
    | .ok bytes =>
      let final := directory.child Manifest.fileName
      ⟨id, directory,
        prepared ++ atomicSteps final (temporaryPath final "manifest" s.token) [bytes], none⟩

/-- The outcome of a recording, and the tree after it; what fails leaves no
directory. -/
def Recording.run (recording : Recording) (tree : FileTree) :
    Except RecordFault String × FileTree :=
  match tree.performAll recording.steps, recording.refusal with
  | (some fault, left), _ => (.error (.files fault), left.removeTree recording.directory)
  | (none, left), some refusal => (.error refusal, left.removeTree recording.directory)
  | (none, done), none => (.ok recording.id, done)

/-! ### The journal -/

/-- A store of runs together with the greatest sequence given out. -/
structure Journal where
  /-- The store. -/
  store : HistoryStore
  /-- The greatest sequence given out. -/
  last : Number.Binary64
  deriving Repr

namespace Journal

/-- The journal of a store that has given out no sequence. -/
def fresh (store : HistoryStore) : Journal := ⟨store, .zero⟩

/-- The distance of sequences when the clock has not gone on: a millionth. -/
def sequenceStep : Number.Binary64 := .ofDecimal false 1 (-6)

/-- The next sequence: the reading of the clock, or a little more than the last
sequence when the clock has not gone on. -/
def nextSequence (last clock : Number.Binary64) : Number.Binary64 :=
  if last.less clock then clock else last.add sequenceStep

/-- A run recorded for an output, with the journal and the tree after it. -/
def record (journal : Journal) (s : Surroundings) (context : List (Document × Document))
    (b : Blueprint) (relative : String) (output : Output) (tree : FileTree) :
    Except RecordFault String × Journal × FileTree :=
  match journal.store.root?, output.journaled with
  | none, _ => (.error .disabled, journal, tree)
  | some _, [] => (.error .unchanged, journal, tree)
  | some root, entries =>
    let sequence := nextSequence journal.last s.clock
    let (outcome, tree) := (recordingOf root s sequence context b relative entries).run tree
    (outcome, { journal with last := sequence }, tree)

end Journal

end Scaffold
