import Scaffold.Bytes.Utf8
import Scaffold.Calendar.Moment
import Scaffold.Number.Numeral

/-!
Reading moments in the ISO notation.

A text starts with a date, as `2024-01-02`, `20240102`, `2024-W01-2` or
`2024W012`, and may go on with any one character and a time of day, with or
without colons, a fraction and an offset. Where a week could end in two places
the length of the text decides. Lengths are counted in the bytes of UTF-8, so
the readers work on octets: characters below `256` that stand for these bytes.

* `octets`: the bytes of a text as characters.
* `separatorAt`: the length of the date.
* `readDate?`, `readClock?`: the parts.
* `readMoment?`: the moment of a whole text.
-/

namespace Scaffold.Calendar.IsoFormat

open Number (natOfDecimal)

/-- The bytes of a text as characters below `256`. -/
def octets (s : String) : List Char :=
  (Utf8.encode s).map fun b => Char.ofNat b.toNat

/-- Whether an octet continues a character. -/
def continues (c : Char) : Bool :=
  0x80 ≤ c.toNat && c.toNat < 0xc0

/-- The character at the head of a list; past the end stands the character
zero. -/
def peek : List Char → Char
  | c :: _ => c
  | [] => '\x00'

/-- The value of exactly `count` digits at the head of a list, and the list after
them. -/
def takeDigits (count : Nat) (cs : List Char) : Option (Nat × List Char) :=
  let digits := cs.take count
  if digits.length = count && digits.all Char.isDigit then
    some (natOfDecimal digits, cs.drop count)
  else none

/-- The length of the date at the head of a text of at least seven characters. -/
def separatorAt (cs : List Char) : Nat :=
  let charAt (i : Nat) : Char := peek (cs.drop i)
  let length := cs.length
  if length = 7 then 7
  else if charAt 4 == '-' then
    if charAt 5 == 'W' then
      if length > 8 && charAt 8 == '-' then
        if length = 9 then 0
        else if length > 10 && (charAt 10).isDigit then 8
        else 10
      else 8
    else 10
  else if charAt 4 == 'W' then
    let stop := 7 + ((cs.drop 7).takeWhile Char.isDigit).length
    if stop < 9 then stop else if stop % 2 = 0 then 7 else 8
  else 8

/-- The date that makes up a whole text. -/
def readDate? (cs : List Char) : Option Date := do
  let (year, rest) ← takeDigits 4 cs
  let separated := peek rest == '-'
  let rest := if separated then rest.drop 1 else rest
  if peek rest == 'W' then
    let (week, rest) ← takeDigits 2 (rest.drop 1)
    if rest.isEmpty then Date.ofWeek? year week 1
    else if separated && peek rest != '-' then none
    else
      let (day, rest) ← takeDigits 1 (if separated then rest.drop 1 else rest)
      if rest.isEmpty then Date.ofWeek? year week day else none
  else
    let (month, rest) ← takeDigits 2 rest
    if separated && peek rest != '-' then none
    else
      let (day, rest) ← takeDigits 2 (if separated then rest.drop 1 else rest)
      if rest.isEmpty then some ⟨year, month, day⟩ else none

/-- A time of day, as hours, minutes, seconds and microseconds. -/
structure Clock where
  (hour minute second microsecond : Nat)

/-- The microseconds of a fraction of `count` digits. -/
def fractionValue (count value : Nat) : Nat :=
  value * Nat.pow 10 (6 - count)

/-- The fraction at the head of a list, of which `count` characters belong to the
time, and whether something other than the end comes after it. -/
def readFraction? (count : Nat) (cs : List Char) : Option (Nat × Bool) := do
  let width := min count 6
  let (value, rest) ← takeDigits width cs
  return (fractionValue width value, peek (rest.dropWhile Char.isDigit) != '\x00')

/-- The time of day in the first `count` characters of a list, and whether
something other than the end comes after it. Colons stand between all numbers or
between none, and one character before the end is passed over. -/
def readClock? (count : Nat) (cs : List Char) : Option (Clock × Bool) := do
  let (hour, rest) ← takeDigits 2 cs
  let mark := peek rest
  let colons := mark == ':'
  if count ≤ 3 then return (⟨hour, 0, 0, 0⟩, mark != '\x00')
  if mark == '.' || mark == ',' then
    let (fraction, more) ← readFraction? (count - 3) (rest.drop 1)
    return (⟨hour, 0, 0, fraction⟩, more)
  let step := if colons then 1 else 0
  let count := count - 2 - step
  let (minute, rest) ← takeDigits 2 (rest.drop step)
  let mark := peek rest
  if count ≤ 3 then return (⟨hour, minute, 0, 0⟩, mark != '\x00')
  if mark == '.' || mark == ',' then
    let (fraction, more) ← readFraction? (count - 3) (rest.drop 1)
    return (⟨hour, minute, 0, fraction⟩, more)
  if colons && mark != ':' then none
  let count := count - 2 - step
  let (second, rest) ← takeDigits 2 (rest.drop step)
  let mark := peek rest
  if count ≤ 3 then return (⟨hour, minute, second, 0⟩, mark != '\x00')
  let step := if mark == '.' || mark == ',' || colons then 1 else 0
  if colons && mark != ':' && mark != '.' && mark != ',' then none
  let (fraction, more) ← readFraction? (count - 2 - step) (rest.drop step)
  return (⟨hour, minute, second, fraction⟩, more)

/-- Whether a character starts an offset. -/
def startsOffset (c : Char) : Bool :=
  c == '+' || c == '-' || c == 'Z'

/-- The time of day and the offset in microseconds that make up a whole text. -/
def readTime? (cs : List Char) : Option (Clock × Option Int) := do
  let before := match cs with
    | [] => []
    | _ => cs.takeWhile (!startsOffset ·)
  let (clock, more) ← readClock? before.length cs
  match cs.drop before.length with
  | [] => if more then none else some (clock, none)
  | 'Z' :: rest => if peek rest == '\x00' then some (clock, some 0) else none
  | sign :: rest =>
    let (offset, more) ← readClock? rest.length rest
    if more then none
    else
      let seconds := (offset.hour * 60 + offset.minute) * 60 + offset.second
      let value : Int := (seconds * 1000000 + offset.microsecond : Nat)
      some (clock, some (if sign == '-' then -value else value))

/-- The moment that a text denotes; a date alone stands for its midnight. -/
def readMoment? (s : String) : Option Moment := do
  let cs := octets s
  if cs.length < 7 then none
  else
    let place := separatorAt cs
    let date ← readDate? (cs.take place)
    let (clock, offset) ← match cs.drop place with
      | [] => some (⟨0, 0, 0, 0⟩, none)
      | _ :: rest => readTime? (rest.dropWhile continues)
    let moment : Moment :=
      ⟨date, clock.hour, clock.minute, clock.second, clock.microsecond, offset⟩
    if moment.isValid then some moment else none

end Scaffold.Calendar.IsoFormat
