import Scaffold.Bytes.Utf8
import Scaffold.Files.Path

/-!
The file tree.

The tree maps places to nodes: files with their contents, directories and
symbolic links. A place is the list of names from the root; no link lies on the
way to it. The root itself is always a directory.

* `Place`, `Node`, `FileTree`: places, nodes and trees.
* `FileTree.node?`: the node at a place.
* `FileTree.set`, `FileTree.remove`: a tree with one place changed, and with the
  time of the directory around it.
* `FileTree.children`: the places inside a directory.
* `node?_set_self`, `node?_set_of_ne`, `node?_remove_self`: what a change does to
  the nodes.
-/

namespace Scaffold.Files

/-- The names from the root to a node, without links on the way. -/
abbrev Place := List String

/-- What lies at a place. -/
inductive Node
  /-- A file with its contents. -/
  | file (contents : Bytes)
  /-- A directory. -/
  | directory
  /-- A symbolic link to a path. -/
  | link (target : String)
  deriving DecidableEq, Repr

/-- A tree of files, seen from a working directory. -/
structure FileTree where
  /-- The directory from which relative paths start. -/
  workplace : Place
  /-- The nodes by place. -/
  nodes : List (Place × Node)
  /-- The times at which nodes were last changed, in nanoseconds. -/
  times : List (Place × Int)
  /-- The time of the next change. -/
  now : Int
  deriving Repr

namespace FileTree

/-- The tree that holds nothing but the root. -/
def empty (workplace : Place) : FileTree :=
  ⟨workplace, [], [], 0⟩

/-- The value of a place in a list of values by place. -/
def find? {α : Type} (key : Place) : List (Place × α) → Option α
  | [] => none
  | entry :: entries => if entry.1 = key then some entry.2 else find? key entries

/-- A list of values by place in which one place has a new value; it stays where it
is, and a new place comes last. -/
def update {α : Type} (key : Place) (value : α) : List (Place × α) → List (Place × α)
  | [] => [(key, value)]
  | entry :: entries =>
    if entry.1 = key then (key, value) :: entries else entry :: update key value entries

/-- A list of values by place without one place. -/
def discard {α : Type} (key : Place) (entries : List (Place × α)) : List (Place × α) :=
  entries.filter fun entry => entry.1 ≠ key

theorem find?_update_self {α : Type} (p : Place) (value : α) (entries : List (Place × α)) :
    find? p (update p value entries) = some value := by
  induction entries with
  | nil => simp [update, find?]
  | cons entry entries ih =>
    rw [update]
    split
    · simp [find?]
    · next h => simp [find?, h, ih]

theorem find?_update_of_ne {α : Type} {p q : Place} (h : q ≠ p) (value : α)
    (entries : List (Place × α)) :
    find? q (update p value entries) = find? q entries := by
  induction entries with
  | nil => simp [update, find?, Ne.symm h]
  | cons entry entries ih =>
    rw [update]
    split
    · next he => simp [find?, he, Ne.symm h]
    · simp [find?, ih]

theorem find?_discard_self {α : Type} (p : Place) (entries : List (Place × α)) :
    find? p (discard p entries) = none := by
  induction entries with
  | nil => rfl
  | cons entry entries ih =>
    by_cases h : entry.1 = p
    · simpa [discard, h] using ih
    · simpa [discard, h, find?] using ih

theorem find?_discard_of_ne {α : Type} {p q : Place} (h : q ≠ p) (entries : List (Place × α)) :
    find? q (discard p entries) = find? q entries := by
  induction entries with
  | nil => rfl
  | cons entry entries ih =>
    by_cases he : entry.1 = p
    · have hq : entry.1 ≠ q := fun hq => h (hq.symm.trans he)
      rw [find?, if_neg hq, ← ih, discard, List.filter_cons_of_neg (by simp [he])]
      rfl
    · rw [discard, List.filter_cons_of_pos (by simp [he]), find?, find?]
      exact ite_congr rfl (fun _ => rfl) fun _ => ih

/-- The node at a place. -/
def node? (tree : FileTree) (place : Place) : Option Node :=
  if place = [] then some .directory else find? place tree.nodes

/-- The time at which a place was last changed. -/
def time (tree : FileTree) (place : Place) : Int :=
  (find? place tree.times).getD 0

/-- The tree after the time of a place has been set to the present. -/
def touch (place : Place) (tree : FileTree) : FileTree :=
  { tree with times := update place tree.now tree.times, now := tree.now + 1 }

/-- The tree with a node at a place. A node that was not there before also changes
the time of the directory around it. -/
def set (place : Place) (node : Node) (tree : FileTree) : FileTree :=
  let grown := (tree.node? place).isNone
  let changed := { tree with nodes := update place node tree.nodes }.touch place
  if grown then changed.touch place.dropLast else changed

/-- The tree without the node at a place. -/
def remove (place : Place) (tree : FileTree) : FileTree :=
  { tree with nodes := discard place tree.nodes, times := discard place tree.times }.touch
    place.dropLast

/-- The tree with a given time at a place. -/
def setTime (place : Place) (time : Int) (tree : FileTree) : FileTree :=
  { tree with times := update place time tree.times }

/-- The places directly inside a place, oldest first. -/
def children (tree : FileTree) (place : Place) : List Place :=
  (tree.nodes.map (·.1)).filter fun p => !p.isEmpty && p.dropLast = place

/-- The places below a place at any depth. -/
def below (tree : FileTree) (place : Place) : List Place :=
  (tree.nodes.map (·.1)).filter fun p => place.isPrefixOf p && p ≠ place

/-- The contents of the file at a place. -/
def contents? (tree : FileTree) (place : Place) : Option Bytes :=
  match tree.node? place with
  | some (.file contents) => some contents
  | _ => none

@[simp] theorem node?_touch (tree : FileTree) (p q : Place) :
    (tree.touch p).node? q = tree.node? q := rfl

/-- A node that has been set is there. -/
theorem node?_set_self {p : Place} (h : p ≠ []) (node : Node) (tree : FileTree) :
    (tree.set p node).node? p = some node := by
  simp only [set]
  split <;> simp [node?, h, touch, find?_update_self]

/-- Setting a node changes no other place. -/
theorem node?_set_of_ne {p q : Place} (h : q ≠ p) (node : Node) (tree : FileTree) :
    (tree.set p node).node? q = tree.node? q := by
  simp only [set]
  split <;> simp [node?, touch, find?_update_of_ne h]

/-- A node that has been removed is gone. -/
theorem node?_remove_self {p : Place} (h : p ≠ []) (tree : FileTree) :
    (tree.remove p).node? p = none := by
  simp [remove, node?, h, touch, find?_discard_self]

/-- Removing a node changes no other place. -/
theorem node?_remove_of_ne {p q : Place} (h : q ≠ p) (tree : FileTree) :
    (tree.remove p).node? q = tree.node? q := by
  simp [remove, node?, touch, find?_discard_of_ne h]

end FileTree

end Scaffold.Files
