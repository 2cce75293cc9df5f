import Scaffold.Commands.Workbench
import Scaffold.Generation.Pipeline

/-!
Generating files: the command that writes the files of blueprints and keeps the
runs.

One blueprint after another is validated, its files are written, and the run is
recorded. A blueprint that fails does not stop the others.

* `Request`: what is to be generated, and how.
* `Production.one`: the files of one blueprint, and whether all went well.
* `Production.generate`: the files of all blueprints that are wanted.
-/

namespace Scaffold

open Files

/-- What is to be generated, and how. -/
structure Request where
  /-- The blueprints. -/
  wanted : Discovery.Wanted
  /-- The layers. -/
  only : Option String
  /-- The architecture in place of the one of the blueprint. -/
  architecture : Option String
  /-- Whether and how files are written. -/
  mode : Writer.Mode
  deriving DecidableEq, Repr

namespace Request

/-- The layers that are wanted. -/
def selection (request : Request) : Selection :=
  request.only.elim .all .text

/-- What is known about an execution, with the warnings of one of its runs. -/
def context (request : Request) (executionId : String) (warnings : List String) :
    List (Document × Document) :=
  [(.text "execution_id", .text executionId),
   (.text "options", .record [("force", .bool request.mode.force),
      ("only", .ofText? request.only), ("architecture_override", .ofText? request.architecture)]),
   (.text "filters", .record [("module", .ofText? request.wanted.modulePath),
      ("entity", .ofText? request.wanted.entity)]),
   (.text "warnings", .list (warnings.map .text))]

end Request

/-! ### What is shown -/

/-- The style of a status. -/
def WriteStatus.style : WriteStatus → String
  | written => "green"
  | overwritten => "yellow"
  | preview => "cyan"
  | skipped => "dim"
  | error => "bold red"

/-- The cells of an entry. -/
def OutputEntry.cells (entry : OutputEntry) : List String :=
  let style := entry.status.style
  ["[" ++ style ++ "]" ++ entry.status.word ++ "[/" ++ style ++ "]",
    (entry.layer.filter fun layer => !layer.isEmpty).getD "-", entry.path,
    Markup.escape (entry.message.getD "")]

/-- The table of an output. -/
def Output.table (title : String) (output : Output) : Table :=
  ⟨title, [.narrow "Status", .plain "Layer", .bold "File", .plain "Detail"],
    output.entries.map OutputEntry.cells⟩

namespace Production

/-- An output is shown with its warnings. -/
def showOutput (label : String) (output : Output) : Work Unit := do
  Work.emit (.table (output.table label))
  for warning in output.warnings do
    Work.line ("[yellow]warning: " ++ Markup.escape warning ++ "[/yellow]")

/-- A finding is shown. -/
def showFinding (style kind label : String) (f : Finding) : Work Unit :=
  Work.line ("[" ++ style ++ "]" ++ label ++ ": " ++ kind ++ " " ++ f.code ++ ": "
    ++ Markup.escape f.message)

/-! ### One blueprint -/

/-- A run is recorded, and its name or the reason why there is none is shown. The number
says how many runs have been recorded before; the journal after it is given. -/
def keep (given : Circumstances) (request : Request) (number : Nat) (journal : Journal)
    (b : Blueprint) (label : String) (output : Output) : Work Journal := do
  let (outcome, after) ← Work.change fun tree =>
    let (outcome, after, tree) := journal.record (given.surroundings number)
      (request.context given.executionId output.warnings) b label output tree
    ((outcome, after), tree)
  match outcome with
  | .ok id => Work.line ("[green]History run:[/green] " ++ id)
  | .error fault =>
    if journal.store.isEnabled && !output.journaled.isEmpty then
      Work.line ("[yellow]Could not record generation history: " ++ Markup.escape fault.message)
  return after

/-- The files of one blueprint: whether all went well, and the journal after it. -/
def one (given : Circumstances) (bench : Workbench) (registry : Generators) (request : Request)
    (number : Nat) (journal : Journal) (b : Blueprint) (label : String) :
    Work (Bool × Journal) := do
  let b := (request.architecture.filter fun name => !name.isEmpty).elim b b.withArchitecture
  let findings ← bench.validate b
  for warning in findings.warnings do showFinding "yellow" "warning" label warning
  if !findings.isValid then
    for error in findings.errors do showFinding "red" "error" label error
    return (false, journal)
  let outcome ← Work.change fun tree =>
    Pipeline.generate bench.architectures bench.configuration.locations.output registry
      request.selection request.mode [] b tree
  match outcome with
  | .error (.broken cause) => throw (.broken cause)
  | .error (.refused unknown) =>
    Work.line ("[bold red]" ++ label ++ ":[/bold red] " ++ Markup.escape unknown.message)
    return (false, journal)
  | .ok output =>
    showOutput label output
    let after ← if request.mode.dryRun then pure journal
      else keep given request number journal b label output
    return (!output.hasErrors, after)

/-! ### All blueprints -/

/-- The files of some blueprints: the number of those that failed, after `number` others
have been looked at. -/
def each (given : Circumstances) (bench : Workbench) (registry : Generators) (request : Request)
    (number : Nat) (journal : Journal) :
    List (String × Except BlueprintFault Blueprint) → Work Nat
  | [] => return 0
  | (path, outcome) :: rest => do
    let label ← bench.label path
    let (fine, journal) ← match outcome with
      | .ok b => one given bench registry request number journal b label
      | .error fault => do
        Work.line ("[bold red]" ++ label ++ ":[/bold red] " ++ Markup.escape fault.message)
        pure (false, journal)
    let failed ← each given bench registry request (number + 1) journal rest
    return if fine then failed else failed + 1

/-- The generators that are built in and those that are configured; a fault is
reported. -/
def generators (bench : Workbench) : Work Generators := do
  match Generator.loadAll bench.configuration.generators with
  | .ok configured => return .ofList (Generator.snapshot :: configured)
  | .error (.broken cause) => throw (.broken cause)
  | .error (.refused fault) =>
    Work.line ("[bold red]Invalid generator configuration:[/bold red] "
      ++ Markup.escape fault.message)
    Work.giveUp

/-- The files of all blueprints that are wanted. -/
def generate (given : Circumstances) (bench : Workbench) (request : Request) : Work Unit := do
  let registry ← generators bench
  match ← bench.discover request.wanted with
  | [] => Work.line "[yellow]No blueprints found.[/yellow]"
  | paths =>
    let failed ← each given bench registry request 0 (.fresh bench.store) (← bench.parse paths)
    if request.mode.dryRun then Work.line "[cyan]Preview mode: no files were written.[/cyan]"
    if failed > 0 then
      Work.line ("[bold red]" ++ toString failed ++ " blueprint(s) failed.[/bold red]")
      Work.giveUp

end Production

end Scaffold
