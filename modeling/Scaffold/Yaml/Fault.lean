/-!
Why a YAML text has no document.

* `YamlFault`: the causes. A text that is no YAML is told from one whose scalars do
  not denote what their tags announce.
-/

namespace Scaffold

/-- Why a YAML text has no document. -/
inductive YamlFault
  /-- The text does not have the form of YAML. -/
  | malformed (reason : String)
  /-- A scalar does not denote a number, a date or a moment. -/
  | unreadable
  /-- A scalar that should denote a number holds no digits at all. -/
  | noDigits
  /-- A scalar does not denote a truth value. -/
  | noTruth
  /-- A scalar does not have the form of a moment. -/
  | noMoment
  /-- A mapping stands where a moment should. -/
  | momentKind
  /-- An escape names a number that is no character. -/
  | noCharacter
  /-- An escape names a number that is too large. -/
  | hugeCharacter
  /-- Lists and mappings are nested too deeply. -/
  | tooDeep
  deriving DecidableEq, Repr

/-- The fault in words. -/
def YamlFault.message : YamlFault → String
  | malformed reason => reason
  | unreadable => "a scalar does not denote a value of its tag"
  | noDigits => "a number has no digits"
  | noTruth => "a scalar denotes no truth value"
  | noMoment => "a scalar denotes no moment"
  | momentKind => "a mapping denotes no moment"
  | noCharacter => "an escape denotes no character"
  | hugeCharacter => "an escape is too large"
  | tooDeep => "lists and mappings are nested too deeply"

end Scaffold
