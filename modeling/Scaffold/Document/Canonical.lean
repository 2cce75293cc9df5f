import Scaffold.Document.Basic
import Scaffold.Json.Printer

/-!
Canonical bytes of documents.

A document made of JSON values has canonical bytes, which do not depend on the
order in which entries were written. A document with any other part has none, and
the first such part, in the order of the canonical bytes, is the reason.

* `CanonicalFault`: why a document has no canonical bytes.
* `Document.toStrict`: the JSON value of a document, members sorted.
* `Document.canonicalBytes`: the canonical bytes.
-/

namespace Scaffold

/-- Why a document has no canonical bytes. -/
inductive CanonicalFault
  /-- The whole document is of a kind that is not allowed. -/
  | unsupported (kind : String)
  /-- A part is of a kind that is not allowed. -/
  | unserializable
  /-- A number has no text: it is infinite or NaN, or an integer with too many digits. -/
  | notFinite
  deriving DecidableEq, Repr

/-- The fault in words. -/
def CanonicalFault.message : CanonicalFault → String
  | unsupported kind => "Unsupported type for canonical JSON: " ++ kind
  | unserializable => "Value is not JSON serializable"
  | notFinite => "Out of range float values are not JSON compliant"

namespace Document

/-- Values of which the first one that is missing is the fault. -/
def sequenceMembers : List (String × Except CanonicalFault Json) →
    Except CanonicalFault (List (String × Json))
  | [] => .ok []
  | (key, value) :: members => do
    let first ← value
    let rest ← sequenceMembers members
    return (key, first) :: rest

mutual

/-- The JSON value of a document, members in increasing order of keys. -/
def toStrict : Document → Except CanonicalFault Json
  | null => .ok .null
  | bool b => .ok (.bool b)
  | int n => if n.natAbs < Nat.pow 10 Json.digitLimit then .ok (.int n) else .error .notFinite
  | float x => if x.isFinite then .ok (.float x) else .error .notFinite
  | text s => .ok (.string s)
  | list items => (toStrictItems items).map .array
  | mapping entries => do
    let members ← toStrictEntries entries
    let members ← sequenceMembers (members.mergeSort fun a b => decide (a.1 ≤ b.1))
    return .object members
  | _ => .error .unserializable

/-- The JSON values of documents. -/
def toStrictItems : List Document → Except CanonicalFault (List Json)
  | [] => .ok []
  | item :: items => do
    let first ← toStrict item
    let rest ← toStrictItems items
    return first :: rest

/-- The keys of entries with the JSON values of their values. -/
def toStrictEntries :
    List (Document × Document) → Except CanonicalFault (List (String × Except CanonicalFault Json))
  | [] => .ok []
  | (text key, value) :: entries => do
    let rest ← toStrictEntries entries
    return (key, toStrict value) :: rest
  | _ :: _ => .error .unserializable

end

/-- The name of a kind that has no canonical bytes. -/
def foreignKind? : Document → Option String
  | bytes _ => some "bytes"
  | date _ => some "date"
  | moment _ => some "datetime"
  | tuple _ => some "tuple"
  | set _ => some "set"
  | _ => none

/-- The canonical bytes of a document, on one line or indented by a width. -/
def canonicalBytes (indent : Option Nat) (d : Document) : Except CanonicalFault Bytes :=
  match foreignKind? d with
  | some kind => .error (.unsupported kind)
  | none => (toStrict d).map fun value => Utf8.encode (value.render indent)

end Document

end Scaffold
