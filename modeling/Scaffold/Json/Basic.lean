import Scaffold.Number.Binary64

/-!
JSON values.

Integers of any size are kept apart from double-precision numbers, and the
members of an object stay in the order in which they were written.

* `Json`: the values.
* `Json.get?`: the member of an object with a key.
* `Json.sorted`: the value with the members of every object in increasing order
  of their keys.
* `Json.allFinite`: no number in the value is infinite or NaN.
* `Json.digitLimit`, `Json.integersFit`: the size of integers that have a text.
* `Json.setMember`: a member is replaced where it stands, or put at the end.
* `Json.ofText?`, `Json.ofInt?`, `Json.ofTexts`: simple values.
-/

namespace Scaffold

open Number

/-- A JSON value. -/
inductive Json
  /-- The null value. -/
  | null
  /-- A truth value. -/
  | bool (value : Bool)
  /-- A number without point and exponent. -/
  | int (value : Int)
  /-- A number with a point or an exponent. -/
  | float (value : Binary64)
  /-- A text. -/
  | string (value : String)
  /-- A list of values. -/
  | array (items : List Json)
  /-- Keys with values. -/
  | object (members : List (String × Json))
  deriving Repr, Inhabited

namespace Json

/-- The last member of an object with a key. -/
def get? (key : String) : Json → Option Json
  | object members => (members.reverse.find? (·.1 == key)).map (·.2)
  | _ => none

/-- Members in which the one with the key has a new value; it stays in its place,
and a new key comes last. -/
def setMember (key : String) (value : Json) :
    List (String × Json) → List (String × Json)
  | [] => [(key, value)]
  | member :: members =>
    if member.1 == key then (key, value) :: members
    else member :: setMember key value members

/-- A text, or null in its absence. -/
def ofText? : Option String → Json
  | some s => string s
  | none => null

/-- An integer, or null in its absence. -/
def ofInt? : Option Int → Json
  | some n => int n
  | none => null

/-- A list of texts. -/
def ofTexts (texts : List String) : Json :=
  array (texts.map string)

/-! ### Order of members -/

/-- Whether one key comes no later than another, by code points. -/
def keyLE (a b : String × Json) : Bool :=
  decide (a.1 ≤ b.1)

mutual

/-- The value with the members of every object in increasing order of keys. -/
def sorted : Json → Json
  | array items => array (sortedItems items)
  | object members => object ((sortedMembers members).mergeSort keyLE)
  | value => value

/-- Every value of a list with its members in order. -/
def sortedItems : List Json → List Json
  | [] => []
  | item :: items => item.sorted :: sortedItems items

/-- Every member with the members of its value in order. -/
def sortedMembers : List (String × Json) → List (String × Json)
  | [] => []
  | (key, value) :: members => (key, value.sorted) :: sortedMembers members

end

/-! ### Finite numbers -/

mutual

/-- Whether no number in a value is infinite or NaN. -/
def allFinite : Json → Bool
  | float x => x.isFinite
  | array items => allFiniteItems items
  | object members => allFiniteMembers members
  | _ => true

/-- Whether no number in a list of values is infinite or NaN. -/
def allFiniteItems : List Json → Bool
  | [] => true
  | item :: items => item.allFinite && allFiniteItems items

/-- Whether no number in the values of some members is infinite or NaN. -/
def allFiniteMembers : List (String × Json) → Bool
  | [] => true
  | (_, value) :: members => value.allFinite && allFiniteMembers members

end

/-! ### Integers with a text -/

/-- The greatest number of digits of an integer. -/
def digitLimit : Nat := 4300

mutual

/-- Whether no integer in a value has too many digits. -/
def integersFit : Json → Bool
  | int n => n.natAbs < Nat.pow 10 digitLimit
  | array items => integersFitItems items
  | object members => integersFitMembers members
  | _ => true

/-- Whether no integer in a list of values has too many digits. -/
def integersFitItems : List Json → Bool
  | [] => true
  | item :: items => item.integersFit && integersFitItems items

/-- Whether no integer in the values of some members has too many digits. -/
def integersFitMembers : List (String × Json) → Bool
  | [] => true
  | (_, value) :: members => value.integersFit && integersFitMembers members

end

end Json

end Scaffold
