import Scaffold.Commands.Workbench

/-!
Looking at blueprints: the commands that validate and list them.

* `CheckedRow`, `ListedRow`: what is told about one blueprint file.
* `Inspection.validate`: the findings about all blueprints of a module.
* `Inspection.list`: the blueprints that are wanted.
-/

namespace Scaffold

open Files

/-- A JSON text for a text that may be absent. -/
def shownOr (s : Option String) : String :=
  ((s.filter fun text => !text.isEmpty)).getD "-"

/-! ### Validation -/

/-- What is told about a validated blueprint file. -/
structure CheckedRow where
  /-- The path of the file, seen from the root. -/
  file : String
  /-- The module of the blueprint. -/
  modulePath : Option String
  /-- The entity of the blueprint. -/
  entity : Option String
  /-- What was found. -/
  findings : Findings
  deriving DecidableEq, Repr

namespace CheckedRow

/-- The word for the outcome. -/
def status (row : CheckedRow) : String :=
  if row.findings.isValid then "ok" else "error"

/-- The row as a JSON value. -/
def toJson (row : CheckedRow) : Json :=
  .object [("file", .string row.file), ("module", .ofText? row.modulePath),
    ("entity", .ofText? row.entity), ("status", .string row.status),
    ("errors", .array (row.findings.errors.map Finding.toJson)),
    ("warnings", .array (row.findings.warnings.map Finding.toJson))]

/-- A finding in a cell, behind its kind in a style. -/
def cell (style kind : String) (f : Finding) : String :=
  "[" ++ style ++ "]" ++ kind ++ "[/" ++ style ++ "] " ++ f.code ++ ": " ++ Markup.escape f.message

/-- The cells of the row. -/
def cells (row : CheckedRow) : List String :=
  let style := if row.findings.isValid then "green" else "bold red"
  let shown := row.findings.errors.map (cell "red" "error")
    ++ row.findings.warnings.map (cell "yellow" "warning")
  [row.file, "[" ++ style ++ "]" ++ row.status ++ "[/" ++ style ++ "]",
    if shown.isEmpty then "-" else "\n".intercalate shown]

/-- The table of some rows. -/
def table (rows : List CheckedRow) : Table :=
  ⟨"Blueprint Validation", [.bold "Blueprint", .narrow "Status", .plain "Findings"],
    rows.map cells⟩

/-- All rows in numbers. -/
def summary (rows : List CheckedRow) : String :=
  let total (findings : CheckedRow → List Finding) := toString (rows.flatMap findings).length
  toString rows.length ++ " blueprint(s) checked, " ++ total (·.findings.errors)
    ++ " error(s), " ++ total (·.findings.warnings) ++ " warning(s)"

end CheckedRow

/-- The row of a file that gives no blueprint. -/
def unparsedRow (file : String) (fault : BlueprintFault) : CheckedRow :=
  ⟨file, none, none, ⟨[⟨"parser.error", fault.message, none⟩], []⟩⟩

/-! ### Listing -/

/-- What is told about a listed blueprint file. -/
structure ListedRow where
  /-- The path of the file, seen from the root. -/
  file : String
  /-- The blueprint, or why there is none. -/
  outcome : Except BlueprintFault Blueprint

namespace ListedRow

/-- The blueprint of the row. -/
def blueprint? (row : ListedRow) : Option Blueprint :=
  row.outcome.toOption

/-- Why there is no blueprint. -/
def fault? (row : ListedRow) : Option BlueprintFault :=
  match row.outcome with
  | .error fault => some fault
  | .ok _ => none

/-- The row as a JSON value. -/
def toJson (row : ListedRow) : Json :=
  .object [("file", .string row.file),
    ("module", .ofText? (row.blueprint?.bind (·.modulePath))),
    ("entity", .ofText? (row.blueprint?.map (·.entity))),
    ("architecture", .ofText? (row.blueprint?.map (·.architecture))),
    ("error", .ofText? (row.fault?.map BlueprintFault.message))]

/-- The cells of the row. -/
def cells (row : ListedRow) : List String :=
  [row.file, shownOr (row.blueprint?.bind (·.modulePath)),
    shownOr (row.blueprint?.map (·.entity)), shownOr (row.blueprint?.map (·.architecture)),
    row.fault?.elim "ok" fun fault => "error: " ++ Markup.escape fault.message]

/-- The table of some rows. -/
def table (rows : List ListedRow) : Table :=
  ⟨"Blueprints", [.bold "Blueprint", .plain "Module", .plain "Entity", .plain "Architecture",
    .narrow "Status"], rows.map cells⟩

end ListedRow

/-! ### The commands -/

namespace Inspection

/-- The row of a validated file. -/
def check (bench : Workbench) (path : String) (outcome : Except BlueprintFault Blueprint) :
    Work CheckedRow := do
  let file ← bench.label path
  match outcome with
  | .error fault => return unparsedRow file fault
  | .ok b => return ⟨file, b.modulePath, some b.entity, ← bench.validate b⟩

/-- The blueprints of a module are validated. -/
def validate (bench : Workbench) (modulePath : Option String) (asJson : Bool) : Work Unit := do
  match ← bench.discover ⟨modulePath, none⟩ with
  | [] =>
    let scope := (modulePath.filter fun text => !text.isEmpty).elim "" fun text =>
      " for module '" ++ text ++ "'"
    Work.line ("[yellow]No blueprints found" ++ scope ++ ".[/yellow]")
  | paths =>
    let rows ← (← bench.parse paths).mapM fun entry => check bench entry.1 entry.2
    let failed := rows.any fun row => !row.findings.isValid
    if asJson then Work.emit (.value (.array (rows.map CheckedRow.toJson)))
    else
      let style := if failed then "bold red" else "green"
      Work.emit (.table (CheckedRow.table rows))
      Work.line ("[" ++ style ++ "]" ++ CheckedRow.summary rows ++ "[/" ++ style ++ "]")
    if failed then Work.giveUp

/-- The blueprints that are wanted are listed. -/
def list (bench : Workbench) (wanted : Discovery.Wanted) (asJson : Bool) : Work Unit := do
  let paths ← bench.discover wanted
  let rows ← (← bench.parse paths).mapM fun entry =>
    return (⟨← bench.label entry.1, entry.2⟩ : ListedRow)
  if asJson then Work.emit (.value (.array (rows.map ListedRow.toJson)))
  else if rows.isEmpty then Work.line "[yellow]No blueprints found.[/yellow]"
  else Work.emit (.table (ListedRow.table rows))
  if rows.any fun row => row.fault?.isSome then Work.giveUp

end Inspection

end Scaffold
