import Scaffold.Blueprint.Discovery
import Scaffold.Number.Numeral
import Scaffold.Text.Pieces

/-!
Command lines.

A command line names a command and goes on with options and operands in any order.
An option starts with a dash; its value is attached with an equals sign or is the
next word. Everything after two dashes is an operand. Of an option that is given
more than once the last one counts.

* `Command`, `Invocation`: what a command line asks for.
* `OptionKind`: whether an option has a value.
* `Role`: the part that a word plays.
* `Given`, `scan`: the options and operands of a command line.
* `Invocation.ofArguments?`: what a command line asks for, if it is well formed.
-/

namespace Scaffold

open Discovery Text

/-- What is to be done. -/
inductive Command
  /-- Blueprints are validated. -/
  | validate (modulePath : Option String) (asJson : Bool)
  /-- Blueprints are listed. -/
  | list (wanted : Wanted) (asJson : Bool)
  /-- Files are generated. -/
  | generate (wanted : Wanted) (only architecture : Option String) (dryRun force : Bool)
  /-- Runs are listed, at most so many. -/
  | history (limit : Nat) (asJson : Bool)
  /-- Runs are rolled back. -/
  | rollback (run execution : Option String) (latestOnly dryRun force : Bool)
  deriving DecidableEq, Repr

/-- What is to be done, and with which configuration file. -/
structure Invocation where
  /-- What is to be done. -/
  command : Command
  /-- The configuration file, as written. -/
  configuration : Option String
  deriving DecidableEq, Repr

namespace CommandLine

/-- Whether an option has a value. -/
inductive OptionKind
  /-- The option stands alone. -/
  | switch
  /-- The option has a value. -/
  | valued
  deriving DecidableEq, Repr

/-- The options and operands of a command line. -/
structure Given where
  /-- The options, the last one first; a switch has no value. -/
  options : List (String × Option String)
  /-- The operands, in order. -/
  operands : List String
  deriving DecidableEq, Repr

namespace Given

/-- No options and no operands. -/
def none : Given := ⟨[], []⟩

/-- One more option. -/
def withOption (name : String) (value : Option String) (given : Given) : Given :=
  { given with options := (name, value) :: given.options }

/-- More operands. -/
def withOperands (operands : List String) (given : Given) : Given :=
  { given with operands := given.operands ++ operands }

/-- Whether a switch is given. -/
def has (name : String) (given : Given) : Bool :=
  (given.options.lookup name).isSome

/-- The value of an option. -/
def value? (name : String) (given : Given) : Option String :=
  (given.options.lookup name).join

end Given

/-- The part that a word plays on a command line. -/
inductive Role
  /-- The word is an operand. -/
  | operand
  /-- The word is an option with all that belongs to it. -/
  | whole (name : String) (value : Option String)
  /-- The word is an option, and the next word is its value. -/
  | opening (name : String)
  /-- The word is no known option, or has a value where it should have none. -/
  | misplaced
  deriving DecidableEq, Repr

/-- Whether a word is an option: it starts with a dash and goes on. -/
def isOption (word : String) : Bool :=
  word.startsWith "-" && word.length > 1

/-- The name of an option, and the value attached to it. -/
def splitOption (word : String) : String × Option String :=
  let cs := word.toList
  let name := String.ofList (cs.takeWhile (· != '='))
  (name, if cs.contains '=' then some (String.ofList ((cs.dropWhile (· != '=')).drop 1)) else none)

/-- The part that a word plays, given the known options. -/
def roleOf (known : List (String × OptionKind)) (word : String) : Role :=
  if isOption word then
    let (name, attached) := splitOption word
    match known.lookup name, attached with
    | some .switch, none => .whole name none
    | some .valued, some value => .whole name (some value)
    | some .valued, none => .opening name
    | _, _ => .misplaced
  else .operand

/-- The options and operands in some words after those found before, if every option
is known and has a value exactly when it should. -/
def scan (known : List (String × OptionKind)) (given : Given) : List String → Option Given
  | [] => some given
  | word :: words =>
    if word == "--" then some (given.withOperands words)
    else match roleOf known word with
      | .operand => scan known (given.withOperands [word]) words
      | .whole name value => scan known (given.withOption name value) words
      | .opening name =>
        match words with
        | value :: rest => scan known (given.withOption name (some value)) rest
        | [] => none
      | .misplaced => none

/-- The options that every command has. -/
def common : List (String × OptionKind) := [("--config", .valued)]

/-- The options that choose blueprints. -/
def choosing : List (String × OptionKind) := [("--module", .valued), ("--entity", .valued)]

/-- The options that a command has besides the common ones, and the greatest number of
operands. -/
def grammar? : String → Option (List (String × OptionKind) × Nat)
  | "validate" => some ([("--json", .switch)], 1)
  | "list" => some (choosing ++ [("--json", .switch)], 0)
  | "generate" => some (choosing ++ [("--only", .valued), ("--architecture", .valued),
      ("--dry-run", .switch), ("--force", .switch)], 0)
  | "history" => some ([("--limit", .valued), ("--json", .switch)], 0)
  | "rollback" => some ([("--execution", .valued), ("--latest-only", .switch),
      ("--dry-run", .switch), ("--force", .switch)], 1)
  | _ => none

/-- The number of runs shown when none is given. -/
def standardLimit : Nat := 20

/-- The number of runs to be shown, which is at least one. -/
def limit? (given : Given) : Option Nat :=
  match given.value? "--limit" with
  | none => some standardLimit
  | some text => (Number.readInteger? text).bind fun n => if n < 1 then none else some n.toNat

/-- The choice of blueprints. -/
def wanted (given : Given) : Wanted :=
  ⟨given.value? "--module", given.value? "--entity"⟩

/-- What a command is to do. -/
def command? (name : String) (given : Given) : Option Command :=
  match name with
  | "validate" => some (.validate given.operands.head? (given.has "--json"))
  | "list" => some (.list (wanted given) (given.has "--json"))
  | "generate" => some (.generate (wanted given) (given.value? "--only")
      (given.value? "--architecture") (given.has "--dry-run") (given.has "--force"))
  | "history" => (limit? given).map fun limit => .history limit (given.has "--json")
  | "rollback" => some (.rollback given.operands.head? (given.value? "--execution")
      (given.has "--latest-only") (given.has "--dry-run") (given.has "--force"))
  | _ => none

end CommandLine

namespace Invocation

open CommandLine

/-- What the words after the name of a command ask for. -/
def ofCommand? (name : String) (words : List String) : Option Invocation := do
  let (options, operands) ← grammar? name
  let given ← scan (common ++ options) .none words
  if given.operands.length > operands then none
  let command ← command? name given
  return ⟨command, given.value? "--config"⟩

/-- What a command line asks for, if it is well formed. -/
def ofArguments? : List String → Option Invocation
  | "--" :: name :: words => ofCommand? name words
  | name :: words => ofCommand? name words
  | [] => none

end Invocation

end Scaffold
