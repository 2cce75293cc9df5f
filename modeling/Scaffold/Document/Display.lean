import Scaffold.Document.Basic
import Scaffold.Number.Shortest
import Scaffold.Text.Pieces
import Scaffold.Text.Quoted

/-!
Documents in diagnostics.

* `Document.shown`: a document as part of a larger one: texts are quoted, lists
  and mappings spelled out.
* `Document.display`: a document on its own: a text stands for itself.
-/

namespace Scaffold.Document

open Calendar

/-- Texts with a comma and a blank between them. -/
def commas (texts : List String) : String :=
  ", ".intercalate texts

/-- A byte between quotes. -/
def shownByte (quote : Char) (b : UInt8) : List Char :=
  let c := Char.ofNat b.toNat
  if b.toNat < 0x80 then Text.quotedChar quote c
  else '\\' :: 'x' :: Text.hexDigits 2 b.toNat

/-- A byte string between quotes. -/
def shownBytes (bs : Bytes) : String :=
  let quote := Text.quoteFor (bs.map fun b => Char.ofNat b.toNat)
  String.ofList ('b' :: quote :: bs.flatMap (shownByte quote) ++ [quote])

/-- The parts of an offset. -/
def shownOffset (offset : Int) : String :=
  if offset = 0 then "datetime.timezone.utc"
  else
    let days := offset / (Moment.microsecondsPerDay : Int)
    let seconds := offset % (Moment.microsecondsPerDay : Int) / 1000000
    "datetime.timezone(datetime.timedelta("
      ++ (if days = 0 then "" else "days=" ++ toString days ++ ", ")
      ++ "seconds=" ++ toString seconds ++ "))"

/-- The parts of a moment. -/
def shownMoment (t : Moment) : String :=
  let numbers := [t.date.year, t.date.month, t.date.day, t.hour, t.minute]
    ++ (if t.second = 0 && t.microsecond = 0 then [] else [t.second])
    ++ (if t.microsecond = 0 then [] else [t.microsecond])
  "datetime.datetime(" ++ commas (numbers.map toString) ++ (match t.offset with
    | none => ""
    | some offset => ", tzinfo=" ++ shownOffset offset) ++ ")"

mutual

/-- A document as part of a larger one. -/
def shown : Document → String
  | null => "None"
  | bool true => "True"
  | bool false => "False"
  | int n => toString n
  | float x => x.text
  | text s => Text.quoted s
  | bytes bs => shownBytes bs
  | date d => "datetime.date(" ++ commas ([d.year, d.month, d.day].map toString) ++ ")"
  | moment t => shownMoment t
  | list items => "[" ++ commas (shownItems items) ++ "]"
  | tuple [item] => "(" ++ shown item ++ ",)"
  | tuple items => "(" ++ commas (shownItems items) ++ ")"
  | set [] => "set()"
  | set items => "\x7b" ++ commas (shownItems items) ++ "\x7d"
  | mapping entries => "\x7b" ++ commas (shownEntries entries) ++ "\x7d"
  | knot => "..."

/-- Documents as parts of a larger one. -/
def shownItems : List Document → List String
  | [] => []
  | item :: items => shown item :: shownItems items

/-- Entries as parts of a larger document. -/
def shownEntries : List (Document × Document) → List String
  | [] => []
  | (key, value) :: entries => (shown key ++ ": " ++ shown value) :: shownEntries entries

end

/-- A document on its own. -/
def display : Document → String
  | text s => s
  | date d => Moment.renderDate d
  | moment t => Moment.renderDate t.date ++ " "
      ++ String.ofList (t.renderClock ++ (t.offset.map Moment.renderOffset).getD [])
  | d => shown d

end Scaffold.Document
