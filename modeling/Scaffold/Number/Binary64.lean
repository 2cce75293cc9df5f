/-!
Double-precision numbers in exact arithmetic.

A number other than NaN is a sign and a rank, the place of its magnitude in the
increasing list of all magnitudes: zero has rank `0`, the smallest positive
number rank `1`, and infinity the last rank. A finite rank stands for the
rational `significand * 2 ^ exponent`, and every operation computes with these
rationals and rounds once, to the nearest number and on a tie to the one of even
rank.

* `Binary64`: the numbers.
* `significand`, `exponent`: the rational of a rank.
* `nearestRank`: rounding of a quotient of natural numbers.
* `ofRatio`, `ofDecimal`, `ofInt`: numbers from exact values.
* `toRatio?`, `toInt?`: exact values of numbers.
* `add`, `mul`: rounded arithmetic.
* `same`, `less`: comparison of values, in which NaN takes no part.
-/

namespace Scaffold.Number

/-- The rank of infinity. -/
def infiniteRank : Nat := 0x7ff0000000000000

/-- A double-precision number. -/
inductive Binary64
  /-- No number. -/
  | nan
  /-- The magnitude of a rank, with a sign. -/
  | signed (negative : Bool) (rank : Fin 0x7ff0000000000001)
  deriving DecidableEq, Repr

namespace Binary64

/-- The number of significands of one exponent. -/
def hiddenBit : Nat := Nat.pow 2 52

/-- The significand of a finite rank. -/
def significand (rank : Nat) : Nat :=
  if rank < hiddenBit then rank else hiddenBit + rank % hiddenBit

/-- The distance of the exponent of a finite rank from the least exponent, which
is `-1074`. -/
def scale (rank : Nat) : Nat :=
  rank / hiddenBit - 1

/-- The magnitude of a finite rank as a quotient. -/
def magnitude (rank : Nat) : Nat × Nat :=
  if scale rank ≤ 1074 then (significand rank, Nat.pow 2 (1074 - scale rank))
  else (significand rank * Nat.pow 2 (scale rank - 1074), 1)

/-- The quotient of two natural numbers, rounded to the nearest natural number
and on a tie to the even one. -/
def roundedQuotient (num den : Nat) : Nat :=
  let floor := num / den
  let twice := 2 * (num % den)
  if twice > den || (twice == den && floor % 2 == 1) then floor + 1 else floor

/-- The least scale at which the significand of a quotient has at most 53
digits in base two. -/
def scaleOf (num den : Nat) : Nat :=
  let guess := num.log2 + 1074 - den.log2 - 53
  if num * Nat.pow 2 1074 / (den * Nat.pow 2 guess) < 2 * hiddenBit then guess else guess + 1

/-- The rank nearest to a quotient, at most that of infinity. -/
def nearestRank (num den : Nat) : Nat :=
  let scale := scaleOf num den
  min infiniteRank
    (scale * hiddenBit + roundedQuotient (num * Nat.pow 2 1074) (den * Nat.pow 2 scale))

/-- The number of a sign and a rank; a rank past infinity counts as infinity. -/
def ofRank (negative : Bool) (rank : Nat) : Binary64 :=
  .signed negative ⟨min infiniteRank rank, by unfold infiniteRank; omega⟩

/-- The number nearest to a signed quotient. -/
def ofRatio (negative : Bool) (num den : Nat) : Binary64 :=
  ofRank negative (nearestRank num den)

/-- The number nearest to `digits * 10 ^ exponent`, with a sign. Exponents far
outside the range of the format are decided without computing the power. -/
def ofDecimal (negative : Bool) (digits : Nat) (exponent : Int) : Binary64 :=
  let size : Int := digits.log2
  if digits == 0 then ofRank negative 0
  else if exponent ≥ 400 then ofRank negative infiniteRank
  else if exponent ≥ 0 then ofRatio negative (digits * Nat.pow 10 exponent.toNat) 1
  else if size + 3 * exponent < -1200 then ofRank negative 0
  else ofRatio negative digits (Nat.pow 10 (-exponent).toNat)

/-- The number nearest to an integer. -/
def ofInt (n : Int) : Binary64 :=
  ofRatio (n < 0) n.natAbs 1

/-- Whether a number is neither NaN nor infinite. -/
def isFinite : Binary64 → Bool
  | nan => false
  | signed _ rank => rank.val < infiniteRank

/-- The zero without a sign. -/
def zero : Binary64 := ofRank false 0

/-- The value of a finite number: a sign, a numerator and a denominator. -/
def toRatio? : Binary64 → Option (Bool × Nat × Nat)
  | nan => none
  | signed negative rank =>
    if rank.val < infiniteRank then some (negative, magnitude rank.val) else none

/-- The integer next to a finite number in the direction of zero. -/
def truncate? (x : Binary64) : Option Int :=
  x.toRatio?.map fun (negative, num, den) =>
    if negative then -((num / den : Nat) : Int) else ((num / den : Nat) : Int)

/-- The value of a number that is an integer. -/
def toInt? (x : Binary64) : Option Int :=
  match x.toRatio? with
  | some (negative, num, den) =>
    if num % den == 0 then
      some (if negative then -((num / den : Nat) : Int) else ((num / den : Nat) : Int))
    else none
  | none => none

/-- The signed numerator of a sign and a natural number. -/
def withSign (negative : Bool) (n : Nat) : Int :=
  if negative then -(n : Int) else n

/-- The rounded sum. A sum of opposite numbers is the zero without a sign. -/
def add (x y : Binary64) : Binary64 :=
  match x, y with
  | nan, _ => nan
  | _, nan => nan
  | signed nx rx, signed ny ry =>
    if rx.val = infiniteRank then
      if ry.val = infiniteRank && nx != ny then nan else signed nx rx
    else if ry.val = infiniteRank then signed ny ry
    else
      let (px, qx) := magnitude rx.val
      let (py, qy) := magnitude ry.val
      let total := withSign nx (px * qy) + withSign ny (py * qx)
      if total = 0 then ofRank (nx && ny) 0
      else ofRatio (total < 0) total.natAbs (qx * qy)

/-- The rounded product. -/
def mul (x y : Binary64) : Binary64 :=
  match x, y with
  | nan, _ => nan
  | _, nan => nan
  | signed nx rx, signed ny ry =>
    let negative := nx != ny
    if rx.val = infiniteRank || ry.val = infiniteRank then
      if rx.val = 0 || ry.val = 0 then nan else ofRank negative infiniteRank
    else
      let (px, qx) := magnitude rx.val
      let (py, qy) := magnitude ry.val
      ofRatio negative (px * py) (qx * qy)

/-- The number with the other sign. -/
def neg : Binary64 → Binary64
  | nan => nan
  | signed negative rank => signed (!negative) rank

/-- The place of a number on the line of all magnitudes with their signs. -/
def place? : Binary64 → Option Int
  | nan => none
  | signed negative rank => some (withSign negative rank.val)

/-- Whether two numbers have the same value; the two zeros have. -/
def same (x y : Binary64) : Bool :=
  match x.place?, y.place? with
  | some a, some b => a == b
  | _, _ => false

/-- Whether one number has a smaller value than another. -/
def less (x y : Binary64) : Bool :=
  match x.place?, y.place? with
  | some a, some b => a < b
  | _, _ => false

example : ofRatio false 1 10 = ofRank false 0x3fb999999999999a := by decide +kernel

example : ofDecimal false 5 (-324) = ofRank false 1 := by decide +kernel

example : add (ofDecimal false 1 (-1)) (ofDecimal false 2 (-1)) = ofRank false 0x3fd3333333333334 := by
  decide +kernel

example : ofDecimal false 17976931348623159 292 = ofRank false infiniteRank := by decide +kernel

end Binary64

end Scaffold.Number
