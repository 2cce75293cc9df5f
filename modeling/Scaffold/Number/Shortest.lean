import Scaffold.Number.Binary64

/-!
Shortest decimals.

A double-precision number is written with the fewest digits that read back as
the same number; of two such decimals the nearer one is taken, and on a tie the
one whose last digit is even.

* `decimalPoint`: the power of ten just above a magnitude.
* `candidate?`: the decimal of a given number of digits that reads back.
* `shortest`: digits and exponent of the shortest decimal.
* `Layout`: the decisions of a format about points, exponents and signs.
* `Layout.render`: the text of a number.
-/

namespace Scaffold.Number.Binary64

/-! ### Digits -/

/-- The least `p` with `num / den < 10 ^ p / 10 ^ offset`, searched upwards from
`start`. -/
def decimalPointFrom (num den offset : Nat) : Nat → Nat → Nat
  | 0, start => start
  | fuel + 1, start =>
    if num * Nat.pow 10 offset < den * Nat.pow 10 start then start
    else decimalPointFrom num den offset fuel (start + 1)

/-- The least `p` with `num / den < 10 ^ p`, for a positive magnitude. -/
def decimalPoint (num den : Nat) : Int :=
  let binary : Int := (num.log2 : Int) - den.log2
  let guess : Int := (binary - 1) * 30103 / 100000
  (decimalPointFrom num den 400 4 (guess + 400).toNat : Int) - 400

/-- `digits * 10 ^ exponent` as a quotient. -/
def decimalRatio (digits : Nat) (exponent : Int) : Nat × Nat :=
  if exponent ≥ 0 then (digits * Nat.pow 10 exponent.toNat, 1)
  else (digits, Nat.pow 10 (-exponent).toNat)

/-- The decimal of the given number of digits that reads back as the magnitude of
a rank: one of the two neighbours of `num / den` on the grid of these decimals. -/
def candidate? (rank num den : Nat) (point : Int) (count : Nat) : Option (Nat × Int) :=
  let exponent := point - count
  let (p, q) := decimalRatio 1 exponent
  let below := num * q / (den * p)
  let readsBack (digits : Nat) : Bool :=
    ofDecimal false digits exponent == ofRank false rank
  let twice := 2 * (num * q % (den * p))
  let upperFirst := twice > den * p || (twice == den * p && below % 2 == 1)
  let first := if upperFirst then below + 1 else below
  let second := if upperFirst then below else below + 1
  if readsBack first then some (first, exponent)
  else if readsBack second then some (second, exponent)
  else none

/-- The decimals of `count`, `count + 1`, … digits are tried in turn. -/
def shortestFrom (rank num den : Nat) (point : Int) : Nat → Nat → Option (Nat × Int)
  | 0, _ => none
  | fuel + 1, count =>
    match candidate? rank num den point count with
    | some decimal => some decimal
    | none => shortestFrom rank num den point fuel (count + 1)

/-- The exact decimal of a magnitude whose denominator is a power of two. -/
def exactDecimal (num den : Nat) : Nat × Int :=
  (num * Nat.pow 5 den.log2, -(den.log2 : Int))

/-- The shortest decimal of a finite positive rank. Seventeen digits always
suffice; the exact decimal stands at the end for definiteness. -/
def shortest (rank : Nat) : Nat × Int :=
  let (num, den) := magnitude rank
  (shortestFrom rank num den (decimalPoint num den) 17 1).getD (exactDecimal num den)

/-! ### Layout -/

/-- The decisions of a format about the text of a number. -/
structure Layout where
  /-- The least position of the point that is written without an exponent. -/
  leastPoint : Int
  /-- The greatest position of the point that is written without an exponent. -/
  greatestPoint : Int
  /-- The least number of digits in an exponent. -/
  exponentDigits : Nat
  /-- What stands for NaN. -/
  nan : String
  /-- What stands for positive infinity. -/
  infinity : String

/-- Numbers in diagnostics and as keys: positional from `0.0001` up to below
`10 ^ 16`, otherwise an exponent with a sign and at least two digits. -/
def plainLayout : Layout :=
  ⟨-3, 16, 2, "nan", "inf"⟩

/-- Numbers in documents: as in diagnostics, with names for the values that are
not finite. -/
def documentLayout : Layout :=
  ⟨-3, 16, 2, "NaN", "Infinity"⟩

/-- The decimal digits of a natural number. -/
def digitsOf (n : Nat) : List Char :=
  Nat.toDigits 10 n

/-- Digits without the zeros at their end. -/
def withoutTrailingZeros (digits : List Char) : List Char :=
  (digits.reverse.dropWhile (· == '0')).reverse

/-- Zeros in front of digits up to a width. -/
def padded (width : Nat) (digits : List Char) : List Char :=
  List.replicate (width - digits.length) '0' ++ digits

namespace Layout

/-- The text of the decimal `0.digits * 10 ^ point`. -/
def renderDigits (layout : Layout) (digits : List Char) (point : Int) : List Char :=
  if layout.leastPoint ≤ point && point ≤ layout.greatestPoint then
    if point ≤ 0 then
      '0' :: '.' :: (List.replicate (-point).toNat '0' ++ digits)
    else if digits.length ≤ point.toNat then
      digits ++ List.replicate (point.toNat - digits.length) '0' ++ ['.', '0']
    else digits.take point.toNat ++ '.' :: digits.drop point.toNat
  else
    let exponent := point - 1
    let head := match digits with
      | [d] => [d]
      | d :: ds => d :: '.' :: ds
      | [] => []
    head ++ 'e' :: (if exponent < 0 then '-' else '+')
      :: padded layout.exponentDigits (digitsOf exponent.natAbs)

/-- The text of a number. -/
def render (layout : Layout) : Binary64 → String
  | .nan => layout.nan
  | .signed negative rank =>
    let sign := if negative then "-" else ""
    if rank.val = infiniteRank then sign ++ layout.infinity
    else if rank.val = 0 then sign ++ "0.0"
    else
      let decimal := shortest rank.val
      let all := digitsOf decimal.1
      let point := decimal.2 + all.length
      sign ++ String.ofList (layout.renderDigits (withoutTrailingZeros all) point)

end Layout

/-- The text of a number in diagnostics. -/
def text (x : Binary64) : String :=
  plainLayout.render x

example : text (ofDecimal false 1 (-1)) = "0.1" := by decide +kernel

example : text (ofDecimal false 1 16) = "1e+16" := by decide +kernel

example : text (ofDecimal true 12345678901234567 0) = "-1.2345678901234568e+16" := by
  decide +kernel

example : text (ofRank false 1) = "5e-324" := by decide +kernel

end Scaffold.Number.Binary64
