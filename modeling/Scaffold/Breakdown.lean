import Scaffold.Document.Plain
import Scaffold.Files.Resolve
import Scaffold.Json.Reader
import Scaffold.Yaml.Fault

/-!
What ends a piece of work against all rules.

Most faults are foreseen: they are reported, and the work goes on or ends with a
message. A breakdown is foreseen nowhere. It ends everything.

* `Breakdown`: the causes; `Breakdown.message` says them in words.
* `Failure`: a foreseen fault, or a breakdown.
* `Breakdown.ofResolve`, `Failure.ofJson`, `Failure.ofYaml`: narrower faults in
  these terms.
-/

namespace Scaffold

/-- What ends a piece of work against all rules. -/
inductive Breakdown
  /-- A path cannot be looked at. -/
  | file (fault : Files.Fault)
  /-- Links run in circles. -/
  | circularPath
  /-- A path holds the character zero. -/
  | zeroCharacter
  /-- A file is no encoded text. -/
  | undecodable
  /-- A scalar in a YAML text has no value. -/
  | yaml (fault : YamlFault)
  /-- A JSON text is nested too deeply. -/
  | deepJson
  /-- A JSON text holds, or is to hold, an integer with too many digits. -/
  | hugeInteger
  /-- A module is named relative to no other. -/
  | relativeModule
  /-- A user has no home directory. -/
  | noHome
  /-- A value has no plain form. -/
  | plain (fault : PlainError)
  deriving DecidableEq, Repr

/-- The breakdown in words. -/
def Breakdown.message : Breakdown → String
  | file fault => fault.message
  | circularPath => "links run in circles"
  | zeroCharacter => "a path holds the character zero"
  | undecodable => "a file is no encoded text"
  | yaml fault => fault.message
  | deepJson => "a JSON text is nested too deeply"
  | hugeInteger => "an integer has too many digits"
  | relativeModule => "a module is named relative to no other"
  | noHome => "a user has no home directory"
  | plain .undecodable => "bytes are no encoded text"
  | plain .circular => "a value is nested too deeply"
  | plain .keyKind => "a key is no scalar"

/-- A fault that is foreseen, or a breakdown. -/
inductive Failure (α : Type)
  /-- The fault. -/
  | refused (cause : α)
  /-- The breakdown. -/
  | broken (cause : Breakdown)
  deriving DecidableEq, Repr

/-- A path without a place as a breakdown. -/
def Breakdown.ofResolve : Files.ResolveFault → Breakdown
  | .circular => circularPath
  | .zeroCharacter => zeroCharacter

namespace Failure

variable {α : Type}

/-- Why a JSON text cannot be read; it is foreseen that it has not the form of
JSON. -/
def ofJson (malformed : α) : Json.ReadError → Failure α
  | .malformed => refused malformed
  | .tooDeep => broken .deepJson
  | .hugeInteger => broken .hugeInteger

/-- Why a YAML text cannot be read; it is foreseen that it has not the form of
YAML. -/
def ofYaml (malformed : String → α) : YamlFault → Failure α
  | .malformed reason => refused (malformed reason)
  | fault => broken (.yaml fault)

end Failure

end Scaffold
