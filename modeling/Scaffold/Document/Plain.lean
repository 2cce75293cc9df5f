import Scaffold.Document.Basic
import Scaffold.Number.Shortest

/-!
The plain form of a document.

Every document without a knot and without undecodable bytes has a JSON value as
its plain form: infinite numbers and NaN become null, dates and moments their
text, bytes the text they encode, tuples and sets lists, and keys texts. Where
two keys have one text, the later value counts.

* `PlainError`: why a document has no plain form.
* `Document.keyText`: the text of a key.
* `Document.toPlain`: the plain form.
-/

namespace Scaffold

open Number

/-- Why a document has no plain form. -/
inductive PlainError
  /-- A byte string is no encoded text. -/
  | undecodable
  /-- A value contains itself, or values are nested too deeply. -/
  | circular
  /-- A key is a list, a set or a mapping. -/
  | keyKind
  deriving DecidableEq, Repr

namespace Document

/-- The greatest number of values around a value with a plain form. -/
def plainDepth : Nat := 255

/-- The text of a key. -/
def keyText : Document → Except PlainError String
  | null => .ok "None"
  | bool true => .ok "true"
  | bool false => .ok "false"
  | int n => .ok (toString n)
  | float x => .ok (if x.isFinite then x.text else "None")
  | text s => .ok s
  | bytes bs => (Utf8.decode? bs).elim (.error .undecodable) .ok
  | date d => .ok (Calendar.Moment.renderDate d)
  | moment t => .ok t.render
  | _ => .error .keyKind

mutual

/-- The plain form of a document inside `depth` others. -/
def toPlainAt (depth : Nat) : Document → Except PlainError Json
  | null => .ok .null
  | bool b => .ok (.bool b)
  | int n => .ok (.int n)
  | float x => .ok (if x.isFinite then .float x else .null)
  | text s => .ok (.string s)
  | bytes bs => (Utf8.decode? bs).elim (.error .undecodable) fun s => .ok (.string s)
  | date d => .ok (.string (Calendar.Moment.renderDate d))
  | moment t => .ok (.string t.render)
  | list items =>
    if depth ≥ plainDepth then .error .circular
    else (toPlainItems (depth + 1) items).map .array
  | tuple items =>
    if depth ≥ plainDepth then .error .circular
    else (toPlainItems (depth + 1) items).map .array
  | set items =>
    if depth ≥ plainDepth then .error .circular
    else (toPlainItems (depth + 1) items).map .array
  | mapping entries =>
    if depth ≥ plainDepth then .error .circular
    else (toPlainEntries (depth + 1) [] entries).map .object
  | knot => .error .circular

/-- The plain forms of some documents. -/
def toPlainItems (depth : Nat) : List Document → Except PlainError (List Json)
  | [] => .ok []
  | item :: items => do
    let first ← toPlainAt depth item
    let rest ← toPlainItems depth items
    return first :: rest

/-- The plain forms of some entries, after those found before. -/
def toPlainEntries (depth : Nat) (found : List (String × Json)) :
    List (Document × Document) → Except PlainError (List (String × Json))
  | [] => .ok found
  | (key, value) :: entries => do
    let name ← keyText key
    let plain ← toPlainAt depth value
    toPlainEntries depth (Json.setMember name plain found) entries

end

/-- The plain form of a document. -/
def toPlain (d : Document) : Except PlainError Json :=
  toPlainAt 0 d

/-- The plain form of a mapping whose keys are texts. -/
def toPlainRecord (entries : List (String × Document)) : Except PlainError Json :=
  (entries.mapM fun entry => (toPlain entry.2).map fun plain => (entry.1, plain)).map .object

end Document

end Scaffold
