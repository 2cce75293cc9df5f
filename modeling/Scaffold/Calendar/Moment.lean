import Scaffold.Calendar.Date
import Scaffold.Number.Shortest

/-!
Moments: a date, a time of day and, where it is known, the distance from
universal time.

* `Moment`: the parts.
* `Moment.microseconds`: the distance from the start of 1970 in universal time; a
  moment without an offset counts as universal time.
* `Moment.seconds`: the same in seconds.
* `Moment.ofMicroseconds`: the moment at a distance, in universal time.
* `Moment.render`: the text `2024-01-02T03:04:05Z`, with a fraction and another
  offset where there is one.
* `Moment.renderOffset`: the same with the offset always in digits.
* `Moment.compact`: the fourteen digits of a moment.
-/

namespace Scaffold.Calendar

open Number.Binary64 (digitsOf padded)

/-- A moment by the clock of some place. -/
structure Moment where
  /-- The day. -/
  date : Date
  /-- The hour, below 24. -/
  hour : Nat
  /-- The minute, below 60. -/
  minute : Nat
  /-- The second, below 60. -/
  second : Nat
  /-- The millionth parts of a second. -/
  microsecond : Nat
  /-- The distance of the clock from universal time in microseconds, if known. -/
  offset : Option Int
  deriving DecidableEq, Repr

namespace Moment

/-- The microseconds of a day. -/
def microsecondsPerDay : Nat := 86400000000

/-- The number of the first day of 1970. -/
def epochDay : Nat := 719163

/-- Whether the parts are in their ranges and the offset is less than a day. -/
def isValid (t : Moment) : Bool :=
  t.date.isValid && t.hour < 24 && t.minute < 60 && t.second < 60 && t.microsecond < 1000000
    && t.offset.all fun offset => offset.natAbs < microsecondsPerDay

/-- The microseconds from the start of 1970 in universal time. -/
def microseconds (t : Moment) : Int :=
  ((t.date.number : Int) - epochDay) * microsecondsPerDay
    + (((t.hour * 60 + t.minute) * 60 + t.second) * 1000000 + t.microsecond : Nat)
    - t.offset.getD 0

/-- The seconds from the start of 1970 in universal time. -/
def seconds (t : Moment) : Number.Binary64 :=
  .ofRatio (t.microseconds < 0) t.microseconds.natAbs 1000000

/-- The moment at a distance from the start of 1970, in universal time. -/
def ofMicroseconds (n : Int) : Moment :=
  let total := (n + epochDay * microsecondsPerDay).toNat
  let rest := total % microsecondsPerDay
  let seconds := rest / 1000000
  ⟨.ofNumber (total / microsecondsPerDay), seconds / 3600, seconds / 60 % 60, seconds % 60,
    rest % 1000000, some 0⟩

/-- A number with zeros in front, up to a width. -/
def digits (width n : Nat) : List Char :=
  padded width (digitsOf n)

/-- The text of a date. -/
def renderDate (d : Date) : String :=
  String.ofList (digits 4 d.year ++ '-' :: digits 2 d.month ++ '-' :: digits 2 d.day)

/-- The text of the time of day. -/
def renderClock (t : Moment) : List Char :=
  digits 2 t.hour ++ ':' :: digits 2 t.minute ++ ':' :: digits 2 t.second
    ++ (if t.microsecond = 0 then [] else '.' :: digits 6 t.microsecond)

/-- The text of an offset: sign, hours and minutes. -/
def renderOffset (offset : Int) : List Char :=
  let minutes := offset.natAbs / 60000000
  (if offset < 0 then '-' else '+') :: digits 2 (minutes / 60) ++ ':' :: digits 2 (minutes % 60)

/-- The text of a moment; universal time is marked by a letter. -/
def render (t : Moment) : String :=
  renderDate t.date ++ "T" ++ String.ofList (renderClock t ++ match t.offset with
    | none => []
    | some 0 => ['Z']
    | some offset => renderOffset offset)

/-- The text of a moment with the digits of its offset. -/
def renderNumeric (t : Moment) : String :=
  renderDate t.date ++ "T" ++ String.ofList (renderClock t ++ match t.offset with
    | none => []
    | some offset => renderOffset offset)

/-- The fourteen digits from the year to the second. -/
def compact (t : Moment) : String :=
  String.ofList (digits 4 t.date.year ++ digits 2 t.date.month ++ digits 2 t.date.day
    ++ digits 2 t.hour ++ digits 2 t.minute ++ digits 2 t.second)

example : (ofMicroseconds 1704164645000000).render = "2024-01-02T03:04:05Z" := by decide +kernel

end Moment

end Scaffold.Calendar
