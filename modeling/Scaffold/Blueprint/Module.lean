import Scaffold.Blueprint.Fault
import Scaffold.Files.Resolve
import Scaffold.Text.CaseMap

/-!
Modules: where a blueprint belongs.

A module path has segments of small letters, digits and underscores, joined by
slashes. It is declared in the blueprint or follows from the directory of the
file below the root of all blueprints.

* `segments`: the segments of a text, trimmed and in lower case.
* `sanitize`: the module path of a text, or the first segment that is not
  allowed.
* `detect`: the directory of a file below a root.
-/

namespace Scaffold.ModulePath

open Text Files

/-- Whether a character may stand in a segment. -/
def isSegmentChar (c : Char) : Bool :=
  c.isLower || c.isDigit || c == '_'

/-- Whether a character separates segments. -/
def isSeparator (c : Char) : Bool :=
  c == '/' || c == '\\'

/-- The segments of a text: trimmed, in lower case and not empty. -/
def segments (cs : List Char) : List (List Char) :=
  ((pieces isSeparator cs).map fun segment => lower (trim segment)).filter (!·.isEmpty)

/-- The module path of a text, if there is a segment, or the first segment with a
character that is not allowed. -/
def sanitize (text : String) : Except String (Option String) :=
  let found := segments text.toList
  match found.find? fun segment => !segment.all isSegmentChar with
  | some segment => .error (String.ofList segment)
  | none =>
    .ok (if found.isEmpty then none else some (String.ofList (joinWith ['/'] found)))

/-- The directory of a file below a root; a file outside the root or directly in
it has none. -/
def detect (tree : FileTree) (root : Option Path) (path : Path) :
    Except ResolveFault (Option String) :=
  match root with
  | none => .ok none
  | some root =>
    match tree.resolve path, tree.resolve root with
    | .error .circular, _ => .error .circular
    | .error .zeroCharacter, _ => .ok none
    | .ok _, .error .circular => .error .circular
    | .ok _, .error .zeroCharacter => .ok none
    | .ok place, .ok top =>
      match Path.after? top place with
      | none => .ok none
      | some names =>
        match names.dropLast with
        | [] => .ok none
        | directory => .ok (some (Path.joinNames directory))

example : (sanitize " HR\\ Payroll/").toOption = some (some "hr/payroll") := by decide +kernel

end Scaffold.ModulePath
