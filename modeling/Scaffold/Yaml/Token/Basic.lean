import Scaffold.Yaml.Fault

/-!
Tokens of a YAML text.

* `Token`: the tokens. The last one of a text says that it has ended or that it
  cannot be read any further.
* `Directive`: a line in front of a document.
-/

namespace Scaffold.Yaml

/-- A line in front of a document. -/
inductive Directive
  /-- The version of the format. -/
  | version (major minor : Nat)
  /-- What a handle stands for at the head of tags. -/
  | handle (name expansion : String)
  /-- A line that has no meaning. -/
  | other
  deriving DecidableEq, Repr

/-- A token. -/
inductive Token
  /-- The text has ended. -/
  | streamEnd
  /-- The text cannot be read any further. -/
  | fault (cause : YamlFault)
  /-- A line in front of a document. -/
  | directive (line : Directive)
  /-- The mark that starts a document. -/
  | documentStart
  /-- The mark that ends a document. -/
  | documentEnd
  /-- A list starts, one item to a line. -/
  | blockSequenceStart
  /-- A mapping starts, one entry to a line. -/
  | blockMappingStart
  /-- A list or mapping with lines of its own ends. -/
  | blockEnd
  /-- A list starts between brackets. -/
  | flowSequenceStart
  /-- A list ends between brackets. -/
  | flowSequenceEnd
  /-- A mapping starts between brackets. -/
  | flowMappingStart
  /-- A mapping ends between brackets. -/
  | flowMappingEnd
  /-- A comma between brackets. -/
  | flowEntry
  /-- An item of a list starts. -/
  | blockEntry
  /-- A key starts. -/
  | key
  /-- A value starts. -/
  | value
  /-- A reference to a node. -/
  | reference (name : String)
  /-- A name for the next node. -/
  | anchor (name : String)
  /-- A tag for the next node; the handle stands for the head of the tag. -/
  | tag (handle : Option String) (rest : String)
  /-- A scalar. -/
  | scalar (plain : Bool) (text : String)
  deriving DecidableEq, Repr, Inhabited

end Scaffold.Yaml
