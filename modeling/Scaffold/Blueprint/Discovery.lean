import Scaffold.Files.Change
import Scaffold.Text.Blank
import Scaffold.Text.CaseMap

/-!
Finding blueprint files.

The files below a root with the suffix of a blueprint are found in the order of
their paths. A module chooses a directory and an entity the name of the file; the
case does not matter, but a file with exactly the names wanted is preferred to all
others.

* `Discovery.Wanted`: the module and the entity that are wanted.
* `Discovery.find`: the files found.
* `Discovery.relativeText`: the path of a file, seen from the root.
-/

namespace Scaffold.Discovery

open Files Text

/-- The suffixes of blueprint files. -/
def suffixes : List String := [".yaml", ".yml"]

/-- A choice of blueprints. -/
structure Wanted where
  /-- The module to which they belong. -/
  modulePath : Option String
  /-- The name of their file. -/
  entity : Option String
  deriving DecidableEq, Repr

/-- The choice of all blueprints. -/
def Wanted.every : Wanted := ⟨none, none⟩

/-- A text, unless it is empty. -/
def nonempty? (s : String) : Option String :=
  if s.isEmpty then none else some s

/-- The module in a choice: trimmed, with slashes between its names. -/
def Wanted.directory? (wanted : Wanted) : Option String :=
  wanted.modulePath.bind fun text =>
    nonempty? (strippedOf '/' ((trimmed text).map fun c => if c == '\\' then '/' else c))

/-- The entity in a choice, trimmed. -/
def Wanted.stem? (wanted : Wanted) : Option String :=
  wanted.entity.bind fun text => nonempty? (trimmed text)

/-- The files among some paths. -/
def filesAmong (tree : FileTree) (paths : List Path) : Except Fault (List Path) :=
  paths.filterM fun path => tree.isFile path

/-- The files with exactly the names wanted. -/
def exact (tree : FileTree) (root : Path) (directory : Option String) (stem : String) :
    Except Fault (List Path) :=
  let before := directory.elim "" (· ++ "/")
  filesAmong tree (suffixes.map fun suffix => root.child (before ++ stem ++ suffix))

/-- Whether a path inside a root is among those wanted. -/
def isWanted (root : Path) (directory stem : Option String) (path : Path) : Bool :=
  let inside := lowered (Path.joinNames (path.names.drop root.names.length))
  suffixes.contains (lowered path.suffix)
    && (directory.all fun name => inside.startsWith (lowered name ++ "/"))
    && (stem.all fun name => lowered path.stem == lowered name)

/-- The files below a root that are wanted. -/
def scan (tree : FileTree) (root : Path) (directory stem : Option String) :
    Except Fault (List Path) := do
  let files ← filesAmong tree (tree.allEntriesOf root)
  return Path.sort (files.filter (isWanted root directory stem))

/-- The blueprint files below a root that are wanted, in the order of their paths. -/
def find (tree : FileTree) (root : Path) (wanted : Wanted) : Except Fault (List Path) := do
  if !(← tree.isDirectory root) then return []
  match wanted.stem? with
  | none => scan tree root wanted.directory? none
  | some stem =>
    match ← exact tree root wanted.directory? stem with
    | [] => scan tree root wanted.directory? (some stem)
    | found => return Path.sort found

/-- The path of a file, seen from a root; the path itself when the file does not lie
below the root. -/
def relativeText (tree : FileTree) (root path : Path) : Except ResolveFault String :=
  match tree.resolve path, tree.resolve root with
  | .error .circular, _ => .error .circular
  | .error .zeroCharacter, _ => .ok path.toText
  | .ok _, .error .circular => .error .circular
  | .ok _, .error .zeroCharacter => .ok path.toText
  | .ok place, .ok top =>
    match Path.after? top place with
    | some names => .ok (Path.toText ⟨"", names⟩)
    | none => .ok path.toText

end Scaffold.Discovery
