import Scaffold.Files.Tree

/-!
From paths to places.

`walk` follows a path as the system does when a file is opened: every name but the
last must denote a directory, links are followed, and a name too many is refused.
`resolve` follows links too, but goes on by name alone where nothing exists, so
it gives a place for every path that does not run in circles. A path that does gets a
place by its names alone if these leave the circle again.

* `Fault`: why an operation on files fails.
* `walk`, `locate`: the place of a path, with its node if there is one; `walkBy` is
  the part of the way up to the next link.
* `resolveFrom`, `resolve`: the place of a path, whether or not something is there.
* `isFile`, `isDirectory`, `exists`: questions about a path.
-/

namespace Scaffold.Files

/-- Why an operation on files fails. -/
inductive Fault
  /-- A name on the way does not exist. -/
  | notFound
  /-- A name on the way is no directory. -/
  | notDirectory
  /-- The path denotes a directory. -/
  | isDirectory
  /-- The path exists already. -/
  | alreadyExists
  /-- Too many links stand on the way. -/
  | tooManyLinks
  /-- A name is too long. -/
  | nameTooLong
  /-- A directory is not empty. -/
  | notEmpty
  /-- A path holds the character zero. -/
  | zeroCharacter
  deriving DecidableEq, Repr

/-- A fault in words. -/
def Fault.message : Fault → String
  | notFound => "[Errno 2] No such file or directory"
  | notDirectory => "[Errno 20] Not a directory"
  | isDirectory => "[Errno 21] Is a directory"
  | alreadyExists => "[Errno 17] File exists"
  | tooManyLinks => "[Errno 40] Too many levels of symbolic links"
  | nameTooLong => "[Errno 36] File name too long"
  | notEmpty => "[Errno 39] Directory not empty"
  | zeroCharacter => "embedded null byte"

/-- Why a path has no place. -/
inductive ResolveFault
  /-- The links on the way run in circles. -/
  | circular
  /-- The path holds the character zero. -/
  | zeroCharacter
  deriving DecidableEq, Repr

/-- Whether the character zero occurs in a path. -/
def Path.holdsZero (path : Path) : Bool :=
  path.names.any fun name => name.toList.contains '\x00'

/-- The greatest number of bytes of a name. -/
def nameLimit : Nat := 255

/-- The greatest number of links on the way to a place. -/
def linkLimit : Nat := 40

/-- Whether a name has more bytes than a directory can hold. -/
def tooLong (name : String) : Bool :=
  name.utf8ByteSize > nameLimit

/-- The names of a link's target, dots included. -/
def targetNames (target : String) : List String :=
  ((Text.pieces (· == '/') target.toList).map String.ofList).filter (· != "")

/-- A place and what is there. -/
structure Found where
  /-- The place. -/
  place : Place
  /-- The node at the place. -/
  node : Option Node
  deriving Repr

namespace FileTree

/-- The place reached from a place along some names, where `jump` goes on from the
place at which the target of a link starts, along its names and those left. -/
def walkBy (tree : FileTree) (follow : Bool) (jump : Place → List String → Except Fault Found)
    (place : Place) : List String → Except Fault Found
  | [] => .ok ⟨place, tree.node? place⟩
  | name :: names =>
    match tree.node? place with
    | none => .error .notFound
    | some (.file _) => .error .notDirectory
    | some (.link _) => .error .notDirectory
    | some .directory =>
      if name = "." then walkBy tree follow jump place names
      else if name = ".." then walkBy tree follow jump place.dropLast names
      else if tooLong name then .error .nameTooLong
      else
        let next := place ++ [name]
        match tree.node? next with
        | some (.link target) =>
          if names.isEmpty && !follow then .ok ⟨next, some (.link target)⟩
          else jump (if target.startsWith "/" then [] else place) (targetNames target ++ names)
        | some node => if names.isEmpty then .ok ⟨next, some node⟩
          else walkBy tree follow jump next names
        | none => if names.isEmpty then .ok ⟨next, none⟩ else .error .notFound

/-- The place reached from a place along some names. Links are followed, the one in
the last name only on demand, and at most `links` of them. -/
def walk (tree : FileTree) (follow : Bool) : Nat → Place → List String → Except Fault Found
  | 0 => tree.walkBy follow fun _ _ => .error .tooManyLinks
  | links + 1 => tree.walkBy follow (tree.walk follow links)

/-- The place at which a path starts. -/
def start (tree : FileTree) (path : Path) : Place :=
  if path.isAbsolute then [] else tree.workplace

/-- The place of a path; the last name may denote nothing. -/
def locate (tree : FileTree) (follow : Bool) (path : Path) : Except Fault Found :=
  if path.holdsZero then .error .zeroCharacter
  else tree.walk follow linkLimit (tree.start path) path.names

/-- The node of a path, links followed. -/
def stat (tree : FileTree) (path : Path) : Except Fault Node := do
  let found ← tree.locate true path
  match found.node with
  | some node => .ok node
  | none => .error .notFound

/-- Whether the node of a path satisfies a condition. A path that leads nowhere does
not; a name that is too long is a fault. -/
def holds (tree : FileTree) (condition : Node → Bool) (path : Path) : Except Fault Bool :=
  match tree.stat path with
  | .ok node => .ok (condition node)
  | .error .nameTooLong => .error .nameTooLong
  | .error _ => .ok false

/-- Whether a node is a file. -/
def nodeIsFile : Node → Bool
  | .file _ => true
  | _ => false

/-- Whether a path denotes a file. -/
def isFile (tree : FileTree) (path : Path) : Except Fault Bool :=
  tree.holds nodeIsFile path

/-- Whether a path denotes a directory. -/
def isDirectory (tree : FileTree) (path : Path) : Except Fault Bool :=
  tree.holds (· == .directory) path

/-- Whether a path denotes anything. -/
def «exists» (tree : FileTree) (path : Path) : Except Fault Bool :=
  tree.holds (fun _ => true) path

/-! ### Resolution -/

/-- The place reached from a place along some names, links followed where they are and
names taken as they are elsewhere; `inner` follows the names in the target of a link. Where
it gets stuck, the names up to there are left, and those behind them. -/
def resolveBy (tree : FileTree)
    (inner : Place → Place → List String → Except (List String) Place) (place : Place) :
    List String → Except (List String) Place
  | [] => .ok place
  | name :: names =>
    if name = "." then resolveBy tree inner place names
    else if name = ".." then resolveBy tree inner place.dropLast names
    else
      let next := place ++ [name]
      match tree.node? next with
      | some (.link target) =>
        match inner next (if target.startsWith "/" then [] else place) (targetNames target) with
        | .ok found => resolveBy tree inner found names
        | .error left => .error (left ++ names)
      | _ => resolveBy tree inner next names

/-- The place reached from a place along some names inside the targets of some links; a
link inside its own target is where the way gets stuck. The first argument bounds the
number of links inside one another. -/
def resolveFrom (tree : FileTree) :
    Nat → List Place → Place → List String → Except (List String) Place
  | 0, _ => tree.resolveBy fun link _ _ => .error link
  | fuel + 1, trail => tree.resolveBy fun link start names =>
    if trail.contains link then .error link else resolveFrom tree fuel (link :: trail) start names

/-- The place of names from the root that are taken as they are. -/
def placeOf (names : List String) : Place :=
  names.foldl (fun place name =>
    if name = "." then place else if name = ".." then place.dropLast else place ++ [name]) []

/-- The place of a path, whether or not something is there. A path that gets stuck in
circles is taken by its names, unless these run in circles as well. -/
def resolve (tree : FileTree) (path : Path) : Except ResolveFault Place :=
  if path.holdsZero then .error .zeroCharacter
  else match tree.resolveFrom (tree.nodes.length + 1) [] (tree.start path) path.names with
    | .ok place => .ok place
    | .error left =>
      match tree.walk true linkLimit [] (placeOf left) with
      | .error .tooManyLinks => .error .circular
      | _ => .ok (placeOf left)

end FileTree

/-- The absolute path of a place. -/
def Place.toPath (place : Place) : Path :=
  ⟨"/", place⟩

end Scaffold.Files
