import Scaffold.Blueprint.Basic
import Scaffold.Calendar.IsoFormat
import Scaffold.Shape.Decoder

/-!
Manifests: the records of generation runs.

* `ChangeRecord`: one change of a file; `Origin`: the blueprint behind a run.
* `Manifest`: a run with all its changes.
* `Manifest.decode`, `Manifest.toPlain`: reading and writing. Members that are not
  known are passed over; a change is written without its absent members.
* `Manifest.moment?`: the time of a run.
-/

namespace Scaffold

open Shape Reading

/-- The record of one change of a file. -/
structure ChangeRecord where
  /-- What became of the file. -/
  status : String
  /-- The layer to which the file belongs. -/
  layer : Option String
  /-- The path, seen from the output root. -/
  path : Option String
  /-- The whole path. -/
  fullPath : Option String
  /-- The number of bytes written. -/
  size : Option Int
  /-- The checksum of the bytes written. -/
  checksum : Option String
  /-- The number of bytes replaced. -/
  previousSize : Option Int
  /-- The checksum of the bytes replaced. -/
  previousChecksum : Option String
  /-- The name of the file that keeps the bytes replaced. -/
  backup : Option String
  deriving DecidableEq, Repr

namespace ChangeRecord

/-- The decoder of changes. -/
def decode : Decoder ChangeRecord :=
  record "HistoryEntry" <|
    (((((((((done ChangeRecord.mk).apply (required "status" text)).apply
      (absentAsNone "layer" text)).apply (absentAsNone "path" text)).apply
      (absentAsNone "full_path" text)).apply (absentAsNone "bytes" int)).apply
      (absentAsNone "checksum" text)).apply (absentAsNone "previous_bytes" int)).apply
      (absentAsNone "previous_checksum" text)).apply (absentAsNone "backup" text)

/-- All members of a change, absent ones as null. -/
def members (c : ChangeRecord) : List (String × Json) :=
  [("status", .string c.status), ("layer", .ofText? c.layer), ("path", .ofText? c.path),
   ("full_path", .ofText? c.fullPath), ("bytes", .ofInt? c.size),
   ("checksum", .ofText? c.checksum), ("previous_bytes", .ofInt? c.previousSize),
   ("previous_checksum", .ofText? c.previousChecksum), ("backup", .ofText? c.backup)]

/-- Whether a JSON value is there. -/
def isPresent : Json → Bool
  | .null => false
  | _ => true

/-- The layout of a change in a file: its members without those that are absent. -/
def toPlain (c : ChangeRecord) : Json :=
  .object (c.members.filter fun member => isPresent member.2)

end ChangeRecord

/-- The blueprint behind a run. -/
structure Origin where
  /-- The module of the blueprint. -/
  modulePath : Option String
  /-- The entity of the blueprint. -/
  entity : Option String
  /-- The architecture of the blueprint. -/
  architecture : Option String
  /-- The path of the blueprint, seen from the root of blueprints. -/
  path : Option String
  deriving DecidableEq, Repr

namespace Origin

/-- The origin of which nothing is known. -/
def unknown : Origin := ⟨none, none, none, none⟩

/-- The decoder of origins. -/
def decode : Decoder Origin :=
  record "BlueprintRef" <|
    ((((done Origin.mk).apply (absentAsNone "module" text)).apply
      (absentAsNone "entity" text)).apply (absentAsNone "architecture" text)).apply
      (absentAsNone "path" text)

/-- The layout of an origin. -/
def toPlain (o : Origin) : Json :=
  .object [("module", .ofText? o.modulePath), ("entity", .ofText? o.entity),
    ("architecture", .ofText? o.architecture), ("path", .ofText? o.path)]

end Origin

/-- The record of a run. -/
structure Manifest where
  /-- The name of the run. -/
  id : String
  /-- The time of the run in ISO notation. -/
  timestamp : Option String
  /-- The place of the run among others. -/
  sequence : Option Number.Binary64
  /-- The execution to which the run belongs. -/
  executionId : Option String
  /-- The blueprint behind the run. -/
  blueprint : Origin
  /-- The options of the execution. -/
  options : Named
  /-- The filters of the execution. -/
  filters : Named
  /-- The warnings of the run. -/
  warnings : List String
  /-- The changes, in the order in which they were made. -/
  entries : List ChangeRecord
  deriving BEq, Repr

namespace Manifest

/-- The name of the file that holds a manifest. -/
def fileName : String := "manifest.json"

/-- The decoder of manifests. -/
def decode : Decoder Manifest :=
  record "RunManifest" <|
    (((((((((done Manifest.mk).apply (required "id" text)).apply
      (absentAsNone "timestamp" text)).apply (absentAsNone "sequence" number)).apply
      (absentAsNone "execution_id" text)).apply
      (defaulted "blueprint" Origin.decode .unknown)).apply
      (defaulted "options" (dictOf anything) [])).apply
      (defaulted "filters" (dictOf anything) [])).apply
      (defaulted "warnings" (listOf text) [])).apply
      (defaulted "entries" (listOf ChangeRecord.decode) [])

/-- The layout of a manifest. -/
def toPlain (m : Manifest) : Except PlainError Json := do
  return .object [("id", .string m.id), ("timestamp", .ofText? m.timestamp),
    ("sequence", m.sequence.elim .null .float), ("execution_id", .ofText? m.executionId),
    ("blueprint", m.blueprint.toPlain), ("options", ← Document.toPlainRecord m.options),
    ("filters", ← Document.toPlainRecord m.filters), ("warnings", .ofTexts m.warnings),
    ("entries", .array (m.entries.map ChangeRecord.toPlain))]

/-- The time of a run, if it is written in ISO notation. -/
def moment? (m : Manifest) : Option Calendar.Moment :=
  m.timestamp.bind Calendar.IsoFormat.readMoment?

end Manifest

end Scaffold
