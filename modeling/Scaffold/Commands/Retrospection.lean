import Scaffold.Commands.Workbench
import Scaffold.History.Rollback

/-!
Looking back: the commands that list runs and roll them back.

* `Retrospection.history`: the runs, newest first.
* `Retrospection.rollback`: the changes of some runs are undone.
-/

namespace Scaffold

open Files

namespace Retrospection

/-! ### What is shown -/

/-- A text, or another one when it is absent or empty. -/
def filledOr (other : String) (s : Option String) : String :=
  (s.filter fun text => !text.isEmpty).getD other

/-- The cells of a run. -/
def runCells (run : Run) : List String :=
  [run.id, filledOr "-" run.manifest.executionId,
    Markup.escape (filledOr "-" run.manifest.blueprint.path),
    toString run.manifest.entries.length, filledOr "-" run.manifest.timestamp]

/-- What is shown of some runs. -/
def shownRuns (runs : List Run) : Emission :=
  if runs.isEmpty then .panel ⟨"History", "No generation runs recorded yet.", "yellow"⟩
  else .table ⟨"Generation History", [.bold "Run ID", .plain "Execution", .plain "Blueprint",
    .narrow "Files", .plain "Recorded (UTC)"], runs.map runCells⟩

/-- A run as a JSON value. -/
def runJson (run : Run) : Except Breakdown Json := do
  match ← run.manifest.toPlain.mapError .plain with
  | .object members =>
    return .object ([("id", .string run.id), ("path", .string run.path.toText)]
      ++ members.filter fun member => member.1 != "id")
  | other => return other

/-- What is shown of the runs that are selected: their execution, or the run that was
asked for by name. -/
def selectionPanel (first : Run) (count : Nat) (name execution : Option String) : Panel :=
  let time := filledOr "unknown date" first.manifest.timestamp
  let shown := match name, firstFilled execution first.manifest.executionId with
    | none, some id =>
      "Execution: [bold]" ++ id ++ "[/bold] (" ++ toString count ++ " run(s), " ++ time ++ ")"
    | _, _ => "Run: [bold]" ++ first.id ++ "[/bold] (blueprint="
        ++ filledOr "-" first.manifest.blueprint.path ++ ", " ++ time ++ ")"
  ⟨"Rollback", shown, "cyan"⟩

/-- The verb for an action. -/
def verb : UndoKind → String
  | .delete => "Delete"
  | .restore => "Restore"

/-- The table of some actions. -/
def planTable (actions : List UndoAction) : Table :=
  ⟨"Rollback Plan", [.narrow "Action", .plain "Blueprint", .bold "File", .plain "Absolute path"],
    actions.map fun action =>
      [verb action.kind, action.label, filledOr "-" action.path, filledOr "-" action.fullPath]⟩

/-- The line of an outcome. -/
def outcomeLine (outcome : UndoOutcome) : String :=
  let style := if outcome.status == .error then "red" else "green"
  "[" ++ style ++ "]" ++ Markup.escape ("[" ++ outcome.status.word ++ "]") ++ "[/" ++ style ++ "] "
    ++ outcome.action.label ++ ": " ++ Markup.escape outcome.detail

/-- The panel of a report. -/
def reportPanel (report : UndoReport) : Panel :=
  let count (status : UndoStatus) := toString (report.count status)
  ⟨"Rollback", "Summary (" ++ toString report.runIds.length ++ " run(s)): restored="
    ++ count .restored ++ ", deleted=" ++ count .deleted ++ ", skipped=" ++ count .skipped
    ++ ", errors=" ++ count .error, if report.hasErrors then "red" else "green"⟩

/-! ### The commands -/

/-- The runs are listed, newest first and at most so many. -/
def history (bench : Workbench) (limit : Nat) (asJson : Bool) : Work Unit := do
  if !bench.store.isEnabled then
    Work.line "[bold red]Generation history is disabled.[/bold red]"
    Work.giveUp
  let runs := (← Work.ofTree bench.store.runs).take limit
  if asJson then Work.emit (.value (.array (← Work.orBreak (runs.mapM runJson))))
  else Work.emit (shownRuns runs)

/-- The line for a selection without runs. -/
def nothingSelected (name execution : Option String) : String :=
  let filled (s : Option String) := s.filter fun text => !text.isEmpty
  match filled name, filled execution with
  | some name, _ => "[bold red]No history run with id '" ++ Markup.escape name ++ "'.[/bold red]"
  | none, some id => "[bold red]No runs for execution '" ++ Markup.escape id ++ "'.[/bold red]"
  | none, none => "[bold red]No recorded runs to roll back.[/bold red]"

/-- The number of runs shown as a suggestion. -/
def suggested : Nat := 5

/-- Actions are carried out and reported. -/
def carryOut (given : Circumstances) (actions : List UndoAction) : Work Unit := do
  match ← Work.change (undoAll (given.surroundings 0).token actions) with
  | .error fault => throw (.broken (.file fault))
  | .ok outcomes =>
    let report : UndoReport := ⟨outcomes, false⟩
    for outcome in outcomes do Work.line (outcomeLine outcome)
    Work.emit (.panel (reportPanel report))
    if report.hasErrors then Work.giveUp

/-- The changes of the selected runs are undone. -/
def rollback (given : Circumstances) (bench : Workbench) (name execution : Option String)
    (latestOnly dryRun force : Bool) : Work Unit := do
  if !bench.store.isEnabled then
    Work.line ("[bold red]Generation history is disabled.[/bold red] "
      ++ "Set history.enabled and history.path in the configuration.")
    Work.giveUp
  match ← Work.ofTree fun tree => bench.store.select tree name execution latestOnly with
  | [] =>
    Work.line (nothingSelected name execution)
    let available ← Work.ofTree bench.store.runs
    if !available.isEmpty then Work.emit (shownRuns (available.take suggested))
    Work.giveUp
  | first :: others =>
    match planUndo (← get).tree (first :: others) with
    | [] => Work.line "[yellow]The selected runs have no files to roll back.[/yellow]"
    | actions =>
      Work.emit (.panel (selectionPanel first (others.length + 1) name execution))
      Work.emit (.table (planTable actions))
      if dryRun then Work.line "[cyan]Preview mode: no changes were made.[/cyan]"
      else if force then carryOut given actions
      else if ← Work.confirm "Roll back these changes? [Y/n]:" then carryOut given actions
      else Work.line "Cancelled."

end Retrospection

end Scaffold
