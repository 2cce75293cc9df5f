import Scaffold.Bytes.Utf8
import Scaffold.Calendar.Moment
import Scaffold.Json.Basic

/-!
Documents: the free-form values that authors write.

A document is richer than a JSON value: it also has byte strings, dates, sets and
keys that are no texts. Entries of a mapping keep the order of their first
appearance.

* `Document`: the values.
* `Document.sameKey`: when two keys are one and the same; numbers and truth values
  are compared by value.
* `Document.put`: an entry is replaced where it stands, or put at the end.
* `Document.get?`: the value of a key that is a text.
* `Document.ofJson`: a JSON value as a document.
-/

namespace Scaffold

open Number Calendar

/-- A free-form value. -/
inductive Document
  /-- No value. -/
  | null
  /-- A truth value. -/
  | bool (value : Bool)
  /-- An integer. -/
  | int (value : Int)
  /-- A double-precision number. -/
  | float (value : Binary64)
  /-- A text. -/
  | text (value : String)
  /-- A byte string. -/
  | bytes (value : Bytes)
  /-- A date. -/
  | date (value : Date)
  /-- A date with a time of day. -/
  | moment (value : Moment)
  /-- A list of values. -/
  | list (items : List Document)
  /-- A list of values of fixed length. -/
  | tuple (items : List Document)
  /-- A set of values, in the order of their first appearance. -/
  | set (items : List Document)
  /-- Keys with values. -/
  | mapping (entries : List (Document × Document))
  /-- A reference from within a value to the value itself. -/
  | knot
  deriving Repr, Inhabited

namespace Document

/-- The value of a number or a truth value. -/
def numericValue? : Document → Option (Int ⊕ Binary64)
  | bool value => some (.inl (if value then 1 else 0))
  | int value => some (.inl value)
  | float value =>
    match value.toInt? with
    | some n => some (.inl n)
    | none => some (.inr value)
  | _ => none

/-- Whether two scalar documents are the same key. A document that is no scalar is
no key, and NaN is never the same as itself. -/
def sameKey (a b : Document) : Bool :=
  match a.numericValue?, b.numericValue? with
  | some (.inl m), some (.inl n) => m == n
  | some (.inr x), some (.inr y) => x.same y
  | some _, _ => false
  | none, _ =>
    match a, b with
    | null, null => true
    | text s, text t => s == t
    | bytes x, bytes y => x == y
    | date d, date e => d == e
    | moment t, moment u =>
      t.offset.isSome == u.offset.isSome && t.microseconds == u.microseconds
    | _, _ => false

/-- Entries in which the one with the key has a new value; it stays in its place,
and a new key comes last. -/
def put (key value : Document) : List (Document × Document) → List (Document × Document)
  | [] => [(key, value)]
  | entry :: entries =>
    if sameKey entry.1 key then (entry.1, value) :: entries else entry :: put key value entries

/-- The value of a key that is a text. -/
def lookup (key : String) (entries : List (Document × Document)) : Option Document :=
  (entries.find? fun entry => sameKey entry.1 (text key)).map (·.2)

/-- The value that a mapping has for a text; other documents have none. -/
def get? (key : String) : Document → Option Document
  | mapping entries => lookup key entries
  | _ => none

/-- The text of a document that is one. -/
def asText? : Document → Option String
  | text s => some s
  | _ => none

/-- The entries of a mapping. -/
def entries? : Document → Option (List (Document × Document))
  | mapping entries => some entries
  | _ => none

/-- A mapping whose keys are texts. -/
def record (entries : List (String × Document)) : Document :=
  mapping (entries.map fun (key, value) => (text key, value))

/-- A text, or null in its absence. -/
def ofText? : Option String → Document
  | some s => text s
  | none => null

mutual

/-- A JSON value as a document. -/
def ofJson : Json → Document
  | .null => null
  | .bool b => bool b
  | .int n => int n
  | .float x => float x
  | .string s => text s
  | .array items => list (ofItems items)
  | .object members => mapping (ofMembers members)

/-- JSON values as documents. -/
def ofItems : List Json → List Document
  | [] => []
  | item :: items => ofJson item :: ofItems items

/-- The members of a JSON object as entries. -/
def ofMembers : List (String × Json) → List (Document × Document)
  | [] => []
  | (key, value) :: members => (text key, ofJson value) :: ofMembers members

end

/-! ### Equality -/

mutual

/-- Whether two documents are equal in every part. -/
def equal : Document → Document → Bool
  | null, null => true
  | bool a, bool b => a == b
  | int a, int b => a == b
  | float a, float b => a.same b
  | text a, text b => a == b
  | bytes a, bytes b => a == b
  | date a, date b => a == b
  | moment a, moment b => a == b
  | list a, list b => equalItems a b
  | tuple a, tuple b => equalItems a b
  | set a, set b => equalItems a b
  | mapping a, mapping b => equalEntries a b
  | _, _ => false

/-- Whether two lists of documents are equal in every part. -/
def equalItems : List Document → List Document → Bool
  | [], [] => true
  | a :: as, b :: bs => a.equal b && equalItems as bs
  | _, _ => false

/-- Whether two lists of entries are equal in every part. -/
def equalEntries : List (Document × Document) → List (Document × Document) → Bool
  | [], [] => true
  | (k, a) :: as, (l, b) :: bs => k.equal l && a.equal b && equalEntries as bs
  | _, _ => false

end

end Document

end Scaffold
