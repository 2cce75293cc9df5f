import Scaffold.Commands.Arguments
import Scaffold.Commands.Inspection
import Scaffold.Commands.Production
import Scaffold.Commands.Retrospection

/-!
The program: from a command line to what is shown and changed.

* `Ending`: how a program ends.
* `Ending.code`: its exit code.
* `runCommand`: one command.
* `Program.run`: a whole command line.
-/

namespace Scaffold

open Files

/-- How a program ends. -/
inductive Ending
  /-- The command line is not well formed. -/
  | misused
  /-- The command has come to its end, or gives up, with an exit code. -/
  | finished (code : Nat)
  /-- A question has no answer. -/
  | unanswered
  /-- The command has broken down. -/
  | broken (cause : Breakdown)
  deriving DecidableEq, Repr

/-- The exit code of an ending. -/
def Ending.code : Ending → Nat
  | misused => 2
  | finished code => code
  | unanswered => 1
  | broken _ => 1

/-- A command is carried out with a configuration file. -/
def runCommand (given : Circumstances) (file : Option Path) (command : Command) : Work Unit := do
  let bench ← Workbench.load given file
  match command with
  | .validate modulePath asJson => Inspection.validate bench modulePath asJson
  | .list wanted asJson => Inspection.list bench wanted asJson
  | .generate wanted only architecture dryRun force =>
    Production.generate given bench ⟨wanted, only, architecture, ⟨dryRun, force⟩⟩
  | .history limit asJson => Retrospection.history bench limit asJson
  | .rollback run execution latestOnly dryRun force =>
    Retrospection.rollback given bench run execution latestOnly dryRun force

namespace Program

/-- Whether a configuration file is written in such a way that it denotes a
directory. -/
def namesDirectory (tree : FileTree) (file : String) : Bool :=
  !file.isEmpty && (tree.stat (.ofText file)).toOption == some .directory

/-- The ending of a command, and the terminal after it. -/
def conclude (result : Except Stop Unit × Terminal) : Ending × Terminal :=
  match result with
  | (.ok _, terminal) => (.finished 0, terminal)
  | (.error (.exit code), terminal) => (.finished code, terminal)
  | (.error .unanswered, terminal) => (.unanswered, terminal)
  | (.error (.broken cause), terminal) => (.broken cause, terminal)

/-- The ending of a command line, and the terminal after it. -/
def run (given : Circumstances) (arguments : List String) (terminal : Terminal) :
    Ending × Terminal :=
  match Invocation.ofArguments? arguments with
  | none => (.misused, terminal)
  | some invocation =>
    match invocation.configuration with
    | none => conclude ((runCommand given none invocation.command).run.run terminal)
    | some file =>
      if namesDirectory terminal.tree file then (.misused, terminal)
      else if (Path.ofText file).holdsZero then (.broken .zeroCharacter, terminal)
      else conclude ((runCommand given (some (.ofText file)) invocation.command).run.run terminal)

end Program

end Scaffold
