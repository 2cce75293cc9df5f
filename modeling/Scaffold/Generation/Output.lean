import Scaffold.Bytes.Sha256
import Scaffold.Shape.Decoder

/-!
Generated files and what became of them.

* `GeneratedFile`: a path below the output root, contents, and whether an
  existing file may be replaced.
* `WriteStatus`: what became of a file.
* `OutputEntry`: the record of one file, with its decoder; `OutputEntry.isJournaled`
  says that the output tree was changed.
* `Output`: the entries and warnings of a generation.
-/

namespace Scaffold

/-- A file to be written below the output root. -/
structure GeneratedFile where
  /-- The path, seen from the output root. -/
  path : String
  /-- The contents. -/
  contents : Bytes
  /-- Whether an existing file may be replaced. -/
  overwrite : Bool
  deriving DecidableEq, Repr

/-- The contents of a file: a text, or bytes as they are. -/
def GeneratedFile.decodeContents : Shape.Decoder Bytes
  | .text s => .ok (Utf8.encode s)
  | .bytes bs => .ok bs
  | _ => .error [⟨[.key "str"], .notText⟩, ⟨[.key "bytes"], .notBytes⟩]

/-- The decoder of generated files. -/
def GeneratedFile.decode : Shape.Decoder GeneratedFile :=
  Shape.strictRecord "GeneratedFile" ["path", "contents", "overwrite"] <|
    (((Shape.Reading.done GeneratedFile.mk).apply (Shape.required "path" Shape.text)).apply
      (Shape.required "contents" decodeContents)).apply
      (Shape.defaulted "overwrite" Shape.bool false)

/-- What became of a generated file. -/
inductive WriteStatus
  /-- A new file was made. -/
  | written
  /-- An existing file was given new contents. -/
  | overwritten
  /-- Nothing was to be written. -/
  | preview
  /-- An existing file was left as it is. -/
  | skipped
  /-- The file could not be written. -/
  | error
  deriving DecidableEq, Repr

namespace WriteStatus

/-- The word for a status. -/
def word : WriteStatus → String
  | written => "written"
  | overwritten => "overwritten"
  | preview => "preview"
  | skipped => "skipped"
  | error => "error"

/-- All statuses. -/
def every : List WriteStatus := [written, overwritten, preview, skipped, error]

/-- The status of a word. -/
def ofWord? (word : String) : Option WriteStatus :=
  every.find? (·.word == word)

/-- The decoder of statuses. -/
def decode : Shape.Decoder WriteStatus :=
  Shape.word ofWord? (every.map (·.word))

end WriteStatus

/-- The record of one generated file. -/
structure OutputEntry where
  /-- What became of the file. -/
  status : WriteStatus
  /-- The layer to which the file belongs. -/
  layer : Option String
  /-- The path, seen from the output root. -/
  path : String
  /-- The whole path. -/
  fullPath : String
  /-- The number of bytes written. -/
  size : Option Int
  /-- The checksum of the bytes written. -/
  checksum : Option String
  /-- The number of bytes replaced. -/
  previousSize : Option Int
  /-- The checksum of the bytes replaced. -/
  previousChecksum : Option String
  /-- The bytes replaced. -/
  previousContents : Option Bytes
  /-- Why nothing was written. -/
  message : Option String
  /-- What would have been written. -/
  preview : Option String
  deriving DecidableEq, Repr

namespace OutputEntry

/-- The record that says no more than what became of a path. -/
def bare (status : WriteStatus) (path fullPath : String) : OutputEntry :=
  ⟨status, none, path, fullPath, none, none, none, none, none, none, none⟩

/-- The record with a reason why nothing was written. -/
def because (message : String) (entry : OutputEntry) : OutputEntry :=
  { entry with message := some message }

/-- The record with the bytes written. -/
def withContents (contents : Bytes) (entry : OutputEntry) : OutputEntry :=
  { entry with size := some contents.length, checksum := some (Sha256.checksum contents) }

/-- The record with the bytes replaced. -/
def withPrevious (contents : Bytes) (entry : OutputEntry) : OutputEntry :=
  { entry with
    previousSize := some contents.length
    previousChecksum := some (Sha256.checksum contents)
    previousContents := some contents }

/-- The decoder of records. -/
def decode : Shape.Decoder OutputEntry :=
  Shape.strictRecord "PipelineEntry"
    ["status", "layer", "path", "full_path", "bytes", "checksum", "previous_bytes",
     "previous_checksum", "previous_contents", "message", "preview"] <|
    (((((((((((Shape.Reading.done OutputEntry.mk).apply
      (Shape.required "status" WriteStatus.decode)).apply
      (Shape.absentAsNone "layer" Shape.text)).apply (Shape.required "path" Shape.text)).apply
      (Shape.required "full_path" Shape.text)).apply
      (Shape.absentAsNone "bytes" Shape.int)).apply
      (Shape.absentAsNone "checksum" Shape.text)).apply
      (Shape.absentAsNone "previous_bytes" Shape.int)).apply
      (Shape.absentAsNone "previous_checksum" Shape.text)).apply
      (Shape.absentAsNone "previous_contents" Shape.bytes)).apply
      (Shape.absentAsNone "message" Shape.text)).apply (Shape.absentAsNone "preview" Shape.text)

/-- The members of a record, absent ones as null; the bytes replaced are left out. -/
def members (entry : OutputEntry) : List (String × Json) :=
  [("status", .string entry.status.word), ("layer", .ofText? entry.layer),
   ("path", .string entry.path), ("full_path", .string entry.fullPath),
   ("bytes", .ofInt? entry.size), ("checksum", .ofText? entry.checksum),
   ("previous_bytes", .ofInt? entry.previousSize),
   ("previous_checksum", .ofText? entry.previousChecksum), ("message", .ofText? entry.message),
   ("preview", .ofText? entry.preview)]

/-- Whether the output tree was changed. -/
def isJournaled (entry : OutputEntry) : Bool :=
  entry.status == .written || entry.status == .overwritten

end OutputEntry

/-- The entries and warnings of a generation, in order. -/
structure Output where
  /-- What became of every file. -/
  entries : List OutputEntry
  /-- What deserves attention. -/
  warnings : List String
  deriving DecidableEq, Repr

namespace Output

/-- The generation of nothing. -/
def empty : Output := ⟨[], []⟩

/-- The entries that changed the output tree, in order. -/
def journaled (output : Output) : List OutputEntry :=
  output.entries.filter (·.isJournaled)

/-- Whether a file could not be written. -/
def hasErrors (output : Output) : Bool :=
  output.entries.any (·.status == .error)

end Output

end Scaffold
