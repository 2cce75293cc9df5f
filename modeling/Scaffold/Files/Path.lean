import Scaffold.Text.Pieces

/-!
Paths as they are written.

A path is an anchor and a list of names. Repeated slashes and single dots are
dropped when a path is read; a name `..` stays, because what it means depends on
the links on the way.

* `Path`: the anchor (`""`, `"/"` or `"//"`) and the names.
* `Path.ofText`, `Path.toText`: reading and writing.
* `Path.join`, `Path.child`: a path seen from another one.
* `Path.parent`, `Path.name`, `Path.stem`, `Path.suffix`: parts of a path.
* `Path.comesBefore`: the order of paths, name by name.
-/

namespace Scaffold.Files

open Text

/-- A path as it is written. -/
structure Path where
  /-- What stands before the first name: nothing, a slash or two slashes. -/
  anchor : String
  /-- The names, outermost first; none of them is empty, a dot or holds a slash. -/
  names : List String
  deriving DecidableEq, Repr, Inhabited

namespace Path

/-- The names between the slashes of a text. -/
def namesOf (cs : List Char) : List String :=
  ((pieces (· == '/') cs).map String.ofList).filter fun name => name != "" && name != "."

/-- The anchor at the head of a text: two slashes are an anchor of their own, and
any other number of them counts as one. -/
def anchorOf (cs : List Char) : String :=
  match (cs.takeWhile (· == '/')).length with
  | 0 => ""
  | 2 => "//"
  | _ => "/"

/-- The path that a text denotes. -/
def ofText (s : String) : Path :=
  ⟨anchorOf s.toList, namesOf s.toList⟩

/-- The names with slashes between them. -/
def joinNames (names : List String) : String :=
  "/".intercalate names

/-- The text of a path; the path without anchor and names is a dot. -/
def toText (p : Path) : String :=
  if p.anchor.isEmpty && p.names.isEmpty then "." else p.anchor ++ joinNames p.names

/-- Whether a path starts at the root. -/
def isAbsolute (p : Path) : Bool :=
  !p.anchor.isEmpty

/-- A path seen from a base; an absolute path stays as it is. -/
def join (base p : Path) : Path :=
  if p.isAbsolute then p else ⟨base.anchor, base.names ++ p.names⟩

/-- The path that a text denotes, seen from a base. -/
def child (base : Path) (s : String) : Path :=
  base.join (ofText s)

/-- The path without its last name. -/
def parent (p : Path) : Path :=
  ⟨p.anchor, p.names.dropLast⟩

/-- The last name of a path, or nothing. -/
def name (p : Path) : String :=
  p.names.getLast?.getD ""

/-- The stem and the suffix of a name: the suffix starts with the last point, which
is neither the first nor the last character. -/
def splitSuffix (name : String) : String × String :=
  match cutLast (· == '.') name.toList with
  | some (before, after) =>
    if before.isEmpty || after.isEmpty then (name, "")
    else (String.ofList before, String.ofList ('.' :: after))
  | none => (name, "")

/-- The last name without its suffix. -/
def stem (p : Path) : String :=
  (splitSuffix p.name).1

/-- The suffix of the last name, with its point. -/
def suffix (p : Path) : String :=
  (splitSuffix p.name).2

/-- Whether one list of names comes before or with another, name by name. -/
def namesLE : List String → List String → Bool
  | [], _ => true
  | _ :: _, [] => false
  | a :: as, b :: bs => if a == b then namesLE as bs else decide (a < b)

/-- Whether a path comes before or with another one. -/
def comesBefore (p q : Path) : Bool :=
  namesLE (p.anchor :: p.names) (q.anchor :: q.names)

/-- Paths in their order. -/
def sort (paths : List Path) : List Path :=
  paths.mergeSort comesBefore

/-- What follows a list of names in another one that starts with it. -/
def after? : List String → List String → Option (List String)
  | [], names => some names
  | _ :: _, [] => none
  | a :: as, b :: bs => if a == b then after? as bs else none

example : toText (ofText "a//b/./../c/") = "a/b/../c" := by decide +kernel

example : (ofText "/x/archive.tar.gz").suffix = ".gz" := by decide +kernel

example : (ofText ".yaml").suffix = "" := by decide +kernel

end Path

end Scaffold.Files
