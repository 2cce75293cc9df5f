import Scaffold.Configuration.Basic
import Scaffold.Files.Home
import Scaffold.Files.TextFile
import Scaffold.Text.Quoted
import Scaffold.Yaml.Reading

/-!
Loading the configuration.

The configuration stands in a JSON or YAML file; without a file it is standard.
Two environment variables have the last word on the keeping of runs. Relative
paths start in a base directory.

* `Variables`: environment variables.
* `ConfigurationFault`: why there is no configuration.
* `decodeFile`: the entries of a configuration file.
* `override`: the entries after the environment variables have been looked at.
* `Configuration.load`: the configuration.
-/

namespace Scaffold

open Files Text

/-- Environment variables with their values. -/
abbrev Variables := List (String × String)

/-- The name of the configuration file. -/
def configurationFileName : String := "blueprintx.yaml"

/-- The variable that says whether runs are kept. -/
def enabledVariable : String := "BLUEPRINTX_HISTORY_ENABLED"

/-- The variable that says where runs are kept. -/
def pathVariable : String := "BLUEPRINTX_HISTORY_PATH"

/-- Why there is no configuration. -/
inductive ConfigurationFault
  /-- The named file does not exist. -/
  | notFound (path : Path)
  /-- The file cannot be read. -/
  | unreadable (path : Path) (fault : Fault)
  /-- The file should hold JSON and does not. -/
  | badJson
  /-- The file should hold YAML and does not. -/
  | badYaml (reason : String)
  /-- The file holds no mapping. -/
  | notMapping
  /-- The variable for the keeping of runs has a value that says nothing. -/
  | badSwitch (value : String)
  /-- The configuration does not have its shape. -/
  | misshapen (violations : List Shape.Violation)
  /-- The default architecture has no layers. -/
  | unknownDefault (architecture : String)
  deriving DecidableEq, Repr

namespace ConfigurationFault

/-- The fault in words. -/
def message : ConfigurationFault → String
  | notFound path => "Config file not found: " ++ path.toText
  | unreadable path fault => "Could not read config " ++ path.toText ++ ": " ++ fault.message
  | badJson => "Invalid config JSON: the text does not have the form of JSON"
  | badYaml reason => "Invalid config YAML: " ++ reason
  | notMapping => "Invalid config payload: root must be an object"
  | badSwitch value => "Invalid " ++ enabledVariable ++ " value " ++ quoted value
  | misshapen violations => "Invalid config payload: " ++ Shape.report "BlueprintxConfig" violations
  | unknownDefault name => "Default architecture '" ++ name ++ "' is not configured."

/-- The violations of the shape, if these are the cause. -/
def violations : ConfigurationFault → Option (List Shape.Violation)
  | misshapen violations => some violations
  | _ => none

end ConfigurationFault

/-! ### The file -/

/-- The text of a configuration file. -/
def readConfiguration (tree : FileTree) (path : Path) :
    Except (Failure ConfigurationFault) String :=
  (tree.readText path).mapError fun
    | .file .zeroCharacter => .broken .zeroCharacter
    | .file fault => .refused (.unreadable path fault)
    | .undecodable => .broken .undecodable

/-- The document in a configuration file: JSON if its suffix says so, and YAML
otherwise. -/
def parseConfiguration (path : Path) (text : String) :
    Except (Failure ConfigurationFault) Document :=
  if lowered path.suffix == ".json" then
    ((Json.parse text).mapError (.ofJson .badJson)).map .ofJson
  else (Yaml.read text).mapError (.ofYaml .badYaml)

/-- The entries of a configuration file; an empty one has none. -/
def decodeFile (tree : FileTree) (path : Path) :
    Except (Failure ConfigurationFault) (List (Document × Document)) := do
  match ← parseConfiguration path (← readConfiguration tree path) with
  | .null => return []
  | .mapping entries => return entries
  | _ => throw (.refused .notMapping)

/-! ### The environment -/

/-- Words that switch something on. -/
def onWords : List String := ["1", "true", "yes", "on"]

/-- Words that switch something off. -/
def offWords : List String := ["0", "false", "no", "off", ""]

/-- What the variable for the keeping of runs says, if it is set. -/
def switch? (environment : Variables) : Except ConfigurationFault (Option Bool) :=
  match environment.lookup enabledVariable with
  | none => .ok none
  | some value =>
    let word := lowered (trimmed value)
    if onWords.contains word then .ok (some true)
    else if offWords.contains word then .ok (some false)
    else .error (.badSwitch value)

/-- The directory of all runs that a variable names. -/
def location? (environment : Variables) : Option String :=
  ((environment.lookup pathVariable).map trimmed).filter fun text => !text.isEmpty

/-- An entry, if there is a value for it. -/
def putIf (key : String) (value : Option Document) (entries : List (Document × Document)) :
    List (Document × Document) :=
  match value with
  | some d => Document.put (.text key) d entries
  | none => entries

/-- The entries of a configuration after the environment variables have been looked
at. -/
def override (environment : Variables) (entries : List (Document × Document)) :
    Except ConfigurationFault (List (Document × Document)) := do
  let own := Normalize.entriesOr (Document.lookup "history" entries)
  let switched := putIf "enabled" ((← switch? environment).map .bool) own
  match putIf "path" ((location? environment).map .text) switched with
  | [] => return entries
  | history => return Document.put (.text "history") (.mapping history) entries

/-! ### The whole -/

/-- A path seen from a base, with the home directory in place of a tilde. -/
def anchored (homes : Homes) (base path : Path) : Except (Failure ConfigurationFault) Path :=
  match path.expandHome? homes with
  | some expanded => .ok (base.join expanded)
  | none => .error (.broken .noHome)

namespace Configuration

/-- The configuration with all paths seen from a base. -/
def resolved (homes : Homes) (base : Path) (c : Configuration) :
    Except (Failure ConfigurationFault) Configuration := do
  let blueprints ← anchored homes base c.locations.blueprints
  let output ← anchored homes base c.locations.output
  let history ← anchored homes base c.history.path
  return { c with locations := ⟨blueprints, output⟩, history := ⟨c.history.enabled, history⟩ }

/-- The configuration of some entries. -/
def ofEntries (entries : List (Document × Document)) : Except ConfigurationFault Configuration := do
  let c ← (decode (.mapping entries)).mapError .misshapen
  if (c.architectures.lookup c.defaultArchitecture).isSome then return c
  else throw (.unknownDefault c.defaultArchitecture)

/-- The entries of the configuration file: of the named one, which must exist, or of
the usual one in the base directory, which may be missing. -/
def entriesAt (tree : FileTree) (base : Path) (path : Option Path) :
    Except (Failure ConfigurationFault) (List (Document × Document)) := do
  let file := path.getD (base.child configurationFileName)
  if ← (tree.exists file).mapError fun fault => .broken (.file fault) then decodeFile tree file
  else match path with
    | some named => throw (.refused (.notFound named))
    | none => return []

/-- The configuration in a file, with paths seen from a base directory. -/
def load (tree : FileTree) (environment : Variables) (homes : Homes) (base : Path)
    (path : Option Path) : Except (Failure ConfigurationFault) Configuration := do
  let entries ← (override environment (← entriesAt tree base path)).mapError .refused
  let c ← (ofEntries entries).mapError .refused
  c.resolved homes base

end Configuration

end Scaffold
