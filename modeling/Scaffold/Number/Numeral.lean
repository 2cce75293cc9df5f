import Scaffold.Number.Binary64
import Scaffold.Text.Blank
import Scaffold.Text.Digit

/-!
Numerals.

The readers of numbers written as text: whole numbers and decimals with a sign,
an optional fraction and an optional exponent, in which single underscores may
stand between digits.

* `natOfDigits`: the value of digits in a base.
* `withoutUnderscores?`: a numeral without its underscores, or `none` when one
  does not stand between digits.
* `Decimal`: a sign, digits and a power of ten.
* `readDecimal?`: the decimal a text denotes.
* `readNumber?`: the number nearest to it, infinities and NaN included.
* `readWhole?`: a whole number, for which a fraction of zeros is allowed.
* `readInteger?`: an integer without a fraction.
-/

namespace Scaffold.Number

open Scaffold.Text

/-- The value of digits in a base, after a value read so far. -/
def natOfDigitsFrom (base : Nat) (value : Nat) : List Nat → Nat
  | [] => value
  | d :: ds => natOfDigitsFrom base (value * base + d) ds

/-- The value of digits in a base. -/
def natOfDigits (base : Nat) (digits : List Nat) : Nat :=
  natOfDigitsFrom base 0 digits

/-- The value of an ASCII decimal digit, and zero for any other character. -/
def decimalDigit (c : Char) : Nat :=
  if c.isDigit then c.toNat - '0'.toNat else 0

/-- The value of decimal digits. -/
def natOfDecimal (digits : List Char) : Nat :=
  natOfDigits 10 (digits.map decimalDigit)

/-- A numeral without its underscores, or `none` when an underscore has no digit
before it or after it. The flag says whether a digit comes just before. -/
def withoutUnderscoresFrom? : Bool → List Char → Option (List Char)
  | _, [] => some []
  | afterDigit, '_' :: cs =>
    if afterDigit && cs.head?.any Char.isDigit then withoutUnderscoresFrom? false cs else none
  | _, c :: cs => (withoutUnderscoresFrom? c.isDigit cs).map (c :: ·)

/-- A numeral without its underscores, each of which stands between digits. -/
def withoutUnderscores? (cs : List Char) : Option (List Char) :=
  withoutUnderscoresFrom? false cs

/-- A sign, digits and a power of ten. -/
structure Decimal where
  /-- Whether the sign is a minus. -/
  negative : Bool
  /-- The digits as a natural number. -/
  digits : Nat
  /-- The power of ten. -/
  exponent : Int
  deriving DecidableEq, Repr

/-- Whether a leading sign is a minus, and the characters after the sign. -/
def takeSign : List Char → Bool × List Char
  | '-' :: cs => (true, cs)
  | '+' :: cs => (false, cs)
  | cs => (false, cs)

/-- The value of the exponent part of a numeral; an absent part counts as zero. -/
def readExponent? : List Char → Option Int
  | [] => some 0
  | c :: cs =>
    if c == 'e' || c == 'E' then
      let (negative, digits) := takeSign cs
      if digits.isEmpty || !digits.all Char.isDigit then none
      else
        let value : Int := natOfDecimal digits
        some (if negative then -value else value)
    else none

/-- The decimal that a text without blanks and underscores denotes: digits with
an optional point among them and an optional exponent. -/
def readDecimal? (cs : List Char) : Option Decimal :=
  let (negative, body) := takeSign cs
  let whole := body.takeWhile Char.isDigit
  let afterWhole := body.dropWhile Char.isDigit
  let (fraction, rest) := match afterWhole with
    | '.' :: more => (more.takeWhile Char.isDigit, more.dropWhile Char.isDigit)
    | _ => ([], afterWhole)
  if whole.isEmpty && fraction.isEmpty then none
  else (readExponent? rest).map fun exponent =>
    ⟨negative, natOfDecimal (whole ++ fraction), exponent - fraction.length⟩

/-- The number a decimal stands for. -/
def Decimal.toNumber (d : Decimal) : Binary64 :=
  .ofDecimal d.negative d.digits d.exponent

/-- The names of the values that have no digits. -/
def readSpecial? (cs : List Char) : Option Binary64 :=
  let (negative, body) := takeSign cs
  let name := String.ofList (body.map Char.toLower)
  if name == "inf" || name == "infinity" then some (.ofRank negative infiniteRank)
  else if name == "nan" then some .nan
  else none

/-- The number that a text denotes, blanks around it and digits of any script
allowed. -/
def readNumber? (s : String) : Option Binary64 :=
  let cs := (trim s.toList).map asciiDigit
  match readSpecial? cs with
  | some x => some x
  | none => do
    let plain ← withoutUnderscores? cs
    let decimal ← readDecimal? plain
    return decimal.toNumber

/-- The whole number that a text denotes, blanks around it and a fraction of
zeros allowed. -/
def readWhole? (s : String) : Option Int :=
  let (negative, body) := takeSign (trim s.toList)
  let whole := body.takeWhile (· != '.')
  let fraction := (body.dropWhile (· != '.')).drop 1
  if !fraction.all (· == '0') || (fraction.isEmpty && whole.length < body.length) then none
  else match withoutUnderscores? whole with
    | none => none
    | some digits =>
      if digits.isEmpty || !digits.all Char.isDigit then none
      else
        let value : Int := natOfDecimal digits
        some (if negative then -value else value)

/-- The greatest number of digits of an integer that is read. -/
def integerDigits : Nat := 4300

/-- The integer that a text denotes, blanks around it and digits of any script
allowed. -/
def readInteger? (s : String) : Option Int :=
  let (negative, body) := takeSign ((trim s.toList).map asciiDigit)
  match withoutUnderscores? body with
  | none => none
  | some digits =>
    if digits.isEmpty || !digits.all Char.isDigit || digits.length > integerDigits then none
    else
      let value : Int := natOfDecimal digits
      some (if negative then -value else value)

example : readInteger? " +1_2 " = some 12 := by decide +kernel

example : (readNumber? " 1_0.5e2 ").map Binary64.toInt? = some (some 1050) := by decide +kernel

example : readWhole? " -1_2.00 " = some (-12) := by decide +kernel

end Scaffold.Number
