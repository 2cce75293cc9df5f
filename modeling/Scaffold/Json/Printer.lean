import Scaffold.Bytes.Hex
import Scaffold.Bytes.Utf8
import Scaffold.Json.Basic
import Scaffold.Number.Shortest
import Scaffold.Text.Pieces

/-!
JSON text.

Characters outside ASCII stand for themselves; a quote, a backslash and the
control characters are escaped. A value is written on one line without blanks,
or with one member to a line behind an indentation.

* `quote`: a text between quotes.
* `Json.render`: the text of a value in a given form.
* `Json.document`: the form of files, indented by two.
* `Json.canonical?`: the sorted form, as bytes, of a value whose numbers have a text.
-/

namespace Scaffold

open Number

namespace Json

/-- A character as it stands between quotes. -/
def quoteChar (c : Char) : List Char :=
  match c with
  | '"' => ['\\', '"']
  | '\\' => ['\\', '\\']
  | '\n' => ['\\', 'n']
  | '\r' => ['\\', 'r']
  | '\t' => ['\\', 't']
  | '\x0c' => ['\\', 'f']
  | '\x08' => ['\\', 'b']
  | c =>
    if c.toNat < 0x20 then
      ['\\', 'u', '0', '0', hexDigit (c.toNat / 16), hexDigit (c.toNat % 16)]
    else [c]

/-- A text between quotes. -/
def quote (s : String) : List Char :=
  '"' :: s.toList.flatMap quoteChar ++ ['"']

/-- The digits of an integer, with a minus for a negative one. -/
def renderInt (n : Int) : List Char :=
  if n < 0 then '-' :: Binary64.digitsOf n.natAbs else Binary64.digitsOf n.natAbs

/-- A line break and the indentation of a depth, or nothing when the text is to
stand on one line. -/
def lineBreak (indent : Option Nat) (depth : Nat) : List Char :=
  match indent with
  | none => []
  | some width => '\n' :: List.replicate (width * depth) ' '

/-- What stands between a key and its value. -/
def colon (indent : Option Nat) : List Char :=
  if indent.isSome then [':', ' '] else [':']

mutual

/-- The text of a value at a depth, each depth indented by the given width. -/
def renderAt (indent : Option Nat) (depth : Nat) : Json → List Char
  | null => "null".toList
  | bool true => "true".toList
  | bool false => "false".toList
  | int n => renderInt n
  | float x => (Binary64.documentLayout.render x).toList
  | string s => quote s
  | array [] => ['[', ']']
  | array (item :: items) =>
    '[' :: lineBreak indent (depth + 1) ++ renderAt indent (depth + 1) item
      ++ renderItems indent (depth + 1) items ++ lineBreak indent depth ++ [']']
  | object [] => ['\x7b', '\x7d']
  | object ((key, value) :: members) =>
    '\x7b' :: lineBreak indent (depth + 1) ++ quote key ++ colon indent
      ++ renderAt indent (depth + 1) value
      ++ renderMembers indent (depth + 1) members ++ lineBreak indent depth ++ ['\x7d']

/-- The text of further values of a list. -/
def renderItems (indent : Option Nat) (depth : Nat) : List Json → List Char
  | [] => []
  | item :: items =>
    ',' :: lineBreak indent depth ++ renderAt indent depth item ++ renderItems indent depth items

/-- The text of further members of an object. -/
def renderMembers (indent : Option Nat) (depth : Nat) : List (String × Json) → List Char
  | [] => []
  | (key, value) :: members =>
    ',' :: lineBreak indent depth ++ quote key ++ colon indent ++ renderAt indent depth value
      ++ renderMembers indent depth members

end

/-- The text of a value, on one line or indented by a width. -/
def render (indent : Option Nat) (value : Json) : String :=
  String.ofList (renderAt indent 0 value)

/-- The text of a value in a file: members in their own order, indented by two. -/
def document (value : Json) : String :=
  render (some 2) value

/-- The canonical bytes of a value every number of which has a text: members sorted
by key, on one line or indented by a width. -/
def canonical? (indent : Option Nat) (value : Json) : Option Bytes :=
  if value.allFinite && value.integersFit then some (Utf8.encode (render indent value.sorted))
  else none

example : render none (object [("a", array [int 1, null]), ("b", object [])])
    = "\x7b\"a\":[1,null],\"b\":\x7b\x7d\x7d" := by decide +kernel

end Json

end Scaffold
