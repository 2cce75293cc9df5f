import Scaffold.Files.Path

/-!
Home directories.

A relative path that starts with a tilde starts in the home directory of a user:
of the present one, or of the one whose name follows the tilde.

* `Homes`: the home directories of users; `Homes.accounts` reads them from a list.
* `Path.expandHome?`: a path with the home directory in place of the tilde.
-/

namespace Scaffold.Files

/-- The home directories of users. -/
structure Homes where
  /-- The home directory of the present user, as written. -/
  own : String
  /-- Other users with their home directories. -/
  others : List (String × String)
  deriving DecidableEq, Repr

/-- The home directories in the lines of a list of accounts, in which colons separate a
name, four other entries and a directory. -/
def Homes.accounts (lines : List String) : List (String × String) :=
  lines.filterMap fun line =>
    match (Text.pieces (· == ':') line.toList).map String.ofList with
    | user :: _ :: _ :: _ :: _ :: home :: _ => some (user, home)
    | _ => none

/-- The home directory that a name with a tilde denotes. -/
def Homes.of? (homes : Homes) (name : String) : Option String :=
  match name.toList.drop 1 with
  | [] => some homes.own
  | user => homes.others.lookup (String.ofList user)

/-- A path with the home directory in place of the tilde at its start, if the user is
known. -/
def Path.expandHome? (homes : Homes) (path : Path) : Option Path :=
  match path.isAbsolute, path.names with
  | false, first :: rest =>
    if first.startsWith "~" then
      match homes.of? first with
      | none => none
      | some home =>
        if home.startsWith "~" then none
        else if (Path.ofText home).names.isEmpty then some ⟨"/", rest⟩
        else some ⟨(Path.ofText home).anchor, (Path.ofText home).names ++ rest⟩
    else some path
  | _, _ => some path

example : Path.expandHome? ⟨"/home/me", []⟩ (.ofText "~/x") = some (.ofText "/home/me/x") := by
  decide +kernel

end Scaffold.Files
