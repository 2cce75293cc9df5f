import Scaffold.Json.Printer

/-!
What commands show.

* `Column`, `Table`, `Panel`: the shapes on a console; their texts are markup.
* `Emission`: one thing that is shown or printed.
* `Emission.printed`: what it prints as plain text.
-/

namespace Scaffold

/-- A column of a table. -/
structure Column where
  /-- What stands above the column. -/
  header : String
  /-- The style of its cells. -/
  style : Option String
  /-- Whether its cells stay on one line. -/
  noWrap : Bool
  deriving DecidableEq, Repr

namespace Column

/-- A column without a style. -/
def plain (header : String) : Column := ⟨header, none, false⟩

/-- A column in bold type. -/
def bold (header : String) : Column := ⟨header, some "bold", false⟩

/-- A column without line breaks. -/
def narrow (header : String) : Column := ⟨header, none, true⟩

end Column

/-- A table with a title. -/
structure Table where
  /-- The title. -/
  title : String
  /-- The columns. -/
  columns : List Column
  /-- The cells, row by row. -/
  rows : List (List String)
  deriving DecidableEq, Repr

/-- A text in a frame. -/
structure Panel where
  /-- The title. -/
  title : String
  /-- The text. -/
  text : String
  /-- The style of the frame. -/
  border : String
  deriving DecidableEq, Repr

/-- One thing that is shown or printed. -/
inductive Emission
  /-- A line on the console. -/
  | line (markup : String)
  /-- A table on the console. -/
  | table (table : Table)
  /-- A panel on the console. -/
  | panel (panel : Panel)
  /-- A value that is printed as JSON. -/
  | value (json : Json)
  /-- A question, and the answer if there is one. -/
  | question (text : String) (answer : Option String)
  /-- A remark about an answer. -/
  | remark (text : String)
  deriving Repr

/-- What an emission prints as plain text; what the console shows does not count. -/
def Emission.printed : Emission → String
  | value json => json.document ++ "\n"
  | question text answer => text ++ " " ++ answer.elim "" (· ++ "\n")
  | remark text => text ++ "\n"
  | _ => ""

end Scaffold
