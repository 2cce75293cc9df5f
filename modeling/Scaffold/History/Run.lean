import Scaffold.Files.Resolve
import Scaffold.History.Manifest

/-!
Runs and their order.

Runs are listed newest first. Of two runs the one with the greater sequence is
newer; when this decides nothing, the one with the later timestamp, then the one
whose directory was changed later, then the one with the greater name. A value
that one of the two does not have decides nothing.

* `Run`: a manifest with the directory from which it was read.
* `Run.compare`: which of two runs comes first.
* `sortBy`: a stable sort; `Run.newestFirst`: runs in their order.
-/

namespace Scaffold

open Files Number

/-- A manifest with the directory from which it was read. -/
structure Run where
  /-- The name. -/
  id : String
  /-- The directory. -/
  path : Path
  /-- The manifest. -/
  manifest : Manifest
  deriving BEq, Repr

/-! ### Which run is newer -/

/-- The order of two values of which the greater one comes first. -/
def descending {α : Type} (less : α → α → Bool) (a b : α) : Ordering :=
  if less b a then .lt else if less a b then .gt else .eq

/-- The order by a value of which the greater one comes first, or `none` when one is
absent or both are equal. -/
def decideBy {α : Type} (equal less : α → α → Bool) : Option α → Option α → Option Ordering
  | some a, some b => if equal a b then none else some (descending less a b)
  | _, _ => none

/-- Whether one text has a smaller code point than another where they first
differ. -/
def textLess (s t : String) : Bool :=
  decide (s < t)

namespace Run

/-- The order of two runs, given the times at which their directories were
changed. -/
def compare (time : Run → Option Int) (a b : Run) : Ordering :=
  let bySequence := decideBy Binary64.same Binary64.less a.manifest.sequence b.manifest.sequence
  let byMoment := decideBy Binary64.same Binary64.less (a.manifest.moment?.map (·.seconds))
    (b.manifest.moment?.map (·.seconds))
  let byTime := decideBy (· == ·) (fun (m n : Int) => decide (m < n)) (time a) (time b)
  (bySequence.or (byMoment.or byTime)).getD (descending textLess a.id b.id)

/-- The time at which the directory of a run was changed. -/
def time? (tree : FileTree) (run : Run) : Option Int :=
  match tree.locate true run.path with
  | .ok ⟨place, some _⟩ => some (tree.time place)
  | _ => none

end Run

/-! ### A stable sort -/

section Ordered

variable {α : Type} (before : α → α → Bool)

/-- The length of the longest stretch at the head of a list in which every element
stands in the given relation to the one before it. -/
def stretch (follows : α → α → Bool) (a : α) : List α → Nat
  | [] => 1
  | b :: bs => if follows a b then stretch follows b bs + 1 else 1

/-- The position at which an element belongs among the elements from `low` up to
`high` of a sorted list, found by halving; `fuel` bounds the number of halvings. -/
def position (sorted : List α) (a : α) : Nat → Nat → Nat → Nat
  | 0, low, _ => low
  | fuel + 1, low, high =>
    if low < high then
      let middle := low + (high - low) / 2
      match sorted[middle]? with
      | some m =>
        if before a m then position sorted a fuel low middle
        else position sorted a fuel (middle + 1) high
      | none => low
    else low

/-- A sorted list with one more element, behind those equal to it. -/
def insertInto (sorted : List α) (a : α) : List α :=
  let i := position before sorted a (sorted.length + 1) 0 sorted.length
  sorted.take i ++ a :: sorted.drop i

/-- The elements of a list in order. The longest ordered stretch at its head is kept
or, when it falls, turned round, and the others are put in one by one. -/
def sortBy : List α → List α
  | [] => []
  | [a] => [a]
  | a :: b :: rest =>
    let all := a :: b :: rest
    let falls (x y : α) := before y x
    let n := if falls a b then stretch falls a (b :: rest)
      else stretch (fun x y => !falls x y) a (b :: rest)
    let head := if falls a b then (all.take n).reverse else all.take n
    (all.drop n).foldl (insertInto before) head

end Ordered

/-- Runs in their order, newest first. -/
def Run.newestFirst (tree : FileTree) (runs : List Run) : List Run :=
  sortBy (fun a b => Run.compare (Run.time? tree) a b == .lt) runs

end Scaffold
