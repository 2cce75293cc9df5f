import Scaffold.Blueprint.Discovery
import Scaffold.Blueprint.Source
import Scaffold.Commands.Console
import Scaffold.Commands.Markup
import Scaffold.Configuration.Loading
import Scaffold.History.Journal
import Scaffold.Validation.Stages

/-!
Where commands work.

A command changes the file tree, shows things and asks questions. It ends early
with an exit code or by a breakdown; what it has done and shown until then stays.

* `Circumstances`, `Terminal`: what a command is given, and what it changes.
* `Stop`: an early end; `Work`: a piece of a command.
* `Work.emit`, `Work.confirm`: what is shown, and what is asked.
* `Workbench`: what follows from the configuration.
-/

namespace Scaffold

open Files

/-- What a command finds when it starts and cannot change. -/
structure Circumstances where
  /-- The environment variables. -/
  environment : Variables
  /-- The home directories. -/
  homes : Homes
  /-- A name that no other execution has. -/
  executionId : String
  /-- What the recordings take from outside, by their number. -/
  surroundings : Nat → Surroundings

/-- What a command changes. -/
structure Terminal where
  /-- The file tree. -/
  tree : FileTree
  /-- What has been shown and printed. -/
  emissions : List Emission
  /-- The answers that are still to be given. -/
  answers : List String
  deriving Repr

/-- An early end. -/
inductive Stop
  /-- The command gives up with an exit code. -/
  | exit (code : Nat)
  /-- A question has no answer. -/
  | unanswered
  /-- The command breaks down. -/
  | broken (cause : Breakdown)
  deriving DecidableEq, Repr

/-- A piece of a command. -/
abbrev Work (α : Type) := ExceptT Stop (StateM Terminal) α

namespace Work

variable {α ε : Type}

/-- One more thing is shown or printed. -/
def emit (emission : Emission) : Work Unit :=
  modify fun terminal => { terminal with emissions := terminal.emissions ++ [emission] }

/-- A line of markup is shown. -/
def line (markup : String) : Work Unit :=
  emit (.line markup)

/-- A command gives up. -/
def giveUp : Work α :=
  throw (.exit 1)

/-- A breakdown ends the command. -/
def orBreak : Except Breakdown α → Work α
  | .ok a => return a
  | .error cause => throw (.broken cause)

/-- What a look at the file tree gives. -/
def ofTree (look : FileTree → Except Breakdown α) : Work α := do
  orBreak (look (← get).tree)

/-- A change of the file tree. -/
def change (step : FileTree → α × FileTree) : Work α :=
  modifyGet fun terminal =>
    let (a, tree) := step terminal.tree
    (a, { terminal with tree })

/-- The meaning of an answer; an empty one agrees. -/
def consent? (answer : String) : Option Bool :=
  match Text.trimmed (Text.lowered answer) with
  | "" => some true
  | "y" => some true
  | "yes" => some true
  | "n" => some false
  | "no" => some false
  | _ => none

/-- What is shown of a question, and its outcome, for the answers that are still to be
given; a question is repeated until it is answered. -/
def ask (question : String) : List String → List Emission × List String × Option Bool
  | [] => ([.question question none], [], none)
  | answer :: answers =>
    match consent? answer with
    | some outcome => ([.question question (some answer)], answers, some outcome)
    | none =>
      let (emissions, rest, outcome) := ask question answers
      (.question question (some answer) :: .remark "Error: invalid input" :: emissions, rest, outcome)

/-- A question is answered with yes or no. -/
def confirm (question : String) : Work Bool := do
  let terminal ← get
  let (emissions, answers, outcome) := ask question terminal.answers
  set { terminal with emissions := terminal.emissions ++ emissions, answers }
  match outcome with
  | some consent => return consent
  | none => throw .unanswered

end Work

/-- What follows from the configuration. -/
structure Workbench where
  /-- The configuration. -/
  configuration : Configuration
  /-- The architectures. -/
  architectures : Architectures
  /-- The reader of blueprints. -/
  reader : BlueprintReader
  /-- The store of runs. -/
  store : HistoryStore

namespace Workbench

/-- The workbench of a configuration. -/
def ofConfiguration (c : Configuration) : Workbench where
  configuration := c
  architectures := c.drivers
  reader := ⟨c.settings, some c.locations.blueprints⟩
  store := ⟨c.history.path.toText, c.history.enabled⟩

/-- The workbench of the configuration in a file, or in the usual one; a fault is
reported. -/
def load (given : Circumstances) (file : Option Path) : Work Workbench := do
  let tree := (← get).tree
  match Configuration.load tree given.environment given.homes tree.workplace.toPath file with
  | .ok c => return ofConfiguration c
  | .error (.broken cause) => throw (.broken cause)
  | .error (.refused fault) => do
    Work.line ("[bold red]Invalid configuration:[/bold red] " ++ Markup.escape fault.message)
    Work.giveUp

/-- The directory of all blueprints. -/
def root (bench : Workbench) : Path :=
  bench.configuration.locations.blueprints

/-- The blueprint files that are wanted; that the root is missing is reported. -/
def discover (bench : Workbench) (wanted : Discovery.Wanted) : Work (List Path) := do
  if ← Work.ofTree fun tree => (tree.isDirectory bench.root).mapError .file then
    Work.ofTree fun tree => (Discovery.find tree bench.root wanted).mapError .file
  else
    Work.line ("[bold red]Blueprints directory does not exist:[/bold red] "
      ++ Markup.escape bench.root.toText)
    Work.giveUp

/-- The outcomes of some blueprint files. -/
def parse (bench : Workbench) (paths : List Path) :
    Work (List (String × Except BlueprintFault Blueprint)) :=
  Work.ofTree fun tree => bench.reader.readAll tree (paths.map Path.toText)

/-- The path of a blueprint file, seen from the root. -/
def label (bench : Workbench) (path : String) : Work String :=
  Work.ofTree fun tree =>
    (Discovery.relativeText tree bench.root (.ofText path)).mapError .ofResolve

/-- The findings about a blueprint. -/
def validate (bench : Workbench) (b : Blueprint) : Work Findings :=
  Work.orBreak ((Scaffold.validate bench.architectures.available b).mapError .plain)

end Workbench

end Scaffold
