import Scaffold.Commands.Console
import Scaffold.Commands.Markup

/-!
The layout of a console without styles.

* `Table.lines`: the lines of a table, every column as wide as its widest cell.
* `Emission.laidOut`: what a console shows of an emission.
-/

namespace Scaffold

/-- A text filled up with blanks to a width. -/
def padTo (width : Nat) (s : String) : String :=
  s ++ String.ofList (List.replicate (width - s.length) ' ')

/-- A cell as it is shown: without tags and on one line. -/
def shownCell (cell : String) : String :=
  (Markup.withoutTags cell).map fun c => if c == '\n' then ' ' else c

namespace Table

/-- The cells of a table as they are shown, the headers first. -/
def grid (t : Table) : List (List String) :=
  t.columns.map (·.header) :: t.rows.map fun row => row.map shownCell

/-- The width of a column. -/
def width (t : Table) (column : Nat) : Nat :=
  (t.grid.map fun row => (row.getD column "").length).foldl max 0

/-- The line of a row. -/
def rowLine (t : Table) (row : List String) : String :=
  "  ".intercalate (row.mapIdx fun i cell => padTo (t.width i) cell)

/-- The lines of a table: its title, the headers and the rows. -/
def lines (t : Table) : List String :=
  t.title :: t.grid.map t.rowLine

end Table

/-- What a console shows of an emission. -/
def Emission.laidOut : Emission → String
  | line markup => Markup.withoutTags markup ++ "\n"
  | table t => String.join (t.lines.map (· ++ "\n"))
  | panel p => p.title ++ ": " ++ Markup.withoutTags p.text ++ "\n"
  | question text _ => text ++ " "
  | emission => emission.printed

end Scaffold
