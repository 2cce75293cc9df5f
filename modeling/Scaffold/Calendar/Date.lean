/-!
Dates of the Gregorian calendar.

Days are counted from the first day of the year one, which has number one.

* `Date`: year, month and day; `Date.isValid` says that the day exists in a year
  with four digits.
* `Date.number`: the number of a day.
* `Date.ofNumber`: the day with a number.
* `Date.ofWeek?`: the day of a week of the ISO calendar.
-/

namespace Scaffold.Calendar

/-- A day by year, month and day of the month. -/
structure Date where
  /-- The year, from one. -/
  year : Nat
  /-- The month, from one. -/
  month : Nat
  /-- The day of the month, from one. -/
  day : Nat
  deriving DecidableEq, Repr

/-- Whether a year has 366 days. -/
def isLeap (year : Nat) : Bool :=
  year % 4 == 0 && (year % 100 != 0 || year % 400 == 0)

/-- The number of days of a month. -/
def daysInMonth (year month : Nat) : Nat :=
  if month == 2 then (if isLeap year then 29 else 28)
  else if [4, 6, 9, 11].contains month then 30
  else 31

/-- The number of days before the first day of a year. -/
def daysBeforeYear (year : Nat) : Nat :=
  let y := year - 1
  y * 365 + y / 4 - y / 100 + y / 400

/-- The number of days of a year before the first day of a month. -/
def daysBeforeMonth (year : Nat) : Nat → Nat
  | 0 => 0
  | 1 => 0
  | month + 2 => daysBeforeMonth year (month + 1) + daysInMonth year (month + 1)

namespace Date

/-- Whether the day exists and its year has one to four digits. -/
def isValid (d : Date) : Bool :=
  1 ≤ d.year && d.year ≤ 9999 && 1 ≤ d.month && d.month ≤ 12
    && 1 ≤ d.day && d.day ≤ daysInMonth d.year d.month

/-- The number of a day, counted from one on the first day of the year one. -/
def number (d : Date) : Nat :=
  daysBeforeYear d.year + daysBeforeMonth d.year d.month + d.day

/-- The month and day of a day of a year, counted from one, searched from a month
on. -/
def monthDay (year : Nat) : Nat → Nat → Nat → Nat × Nat
  | 0, month, day => (month, day)
  | fuel + 1, month, day =>
    if day ≤ daysInMonth year month then (month, day)
    else monthDay year fuel (month + 1) (day - daysInMonth year month)

/-- The year of a day number. -/
def yearOf (number : Nat) : Nat :=
  let guess := (number - 1) / 366 + 1
  let rec climb : Nat → Nat → Nat
    | 0, year => year
    | fuel + 1, year => if number ≤ daysBeforeYear (year + 1) then year else climb fuel (year + 1)
  climb (guess / 400 + 4) guess

/-- The day with a number. -/
def ofNumber (number : Nat) : Date :=
  let year := yearOf number
  let (month, day) := monthDay year 12 1 (number - daysBeforeYear year)
  ⟨year, month, day⟩

/-- The day of the week of a day number, from zero for Monday. -/
def weekday (number : Nat) : Nat :=
  (number + 6) % 7

/-- The number of the Monday that starts the first week of a year. -/
def firstMonday (year : Nat) : Int :=
  let first := (daysBeforeYear year : Int) + 1
  let day := weekday (daysBeforeYear year + 1)
  if day > 3 then first + (7 - day) else first - day

/-- Whether a year of weeks has fifty-three of them. -/
def hasLongWeekYear (year : Nat) : Bool :=
  let first := weekday (daysBeforeYear year + 1)
  first == 3 || (first == 2 && isLeap year)

/-- The day of a week of the ISO calendar, if the week and the day exist. -/
def ofWeek? (year week day : Nat) : Option Date :=
  let weekExists := 1 ≤ week && (week ≤ 52 || (week == 53 && hasLongWeekYear year))
  if 1 ≤ year && year ≤ 9999 && weekExists && 1 ≤ day && day ≤ 7 then
    let number := firstMonday year + ((week - 1) * 7 + day - 1 : Nat)
    if number < 1 then none else some (ofNumber number.toNat)
  else none

example : number ⟨1970, 1, 1⟩ = 719163 := by decide +kernel

example : ofNumber 738886 = ⟨2024, 1, 1⟩ := by decide +kernel

example : ofWeek? 2024 1 1 = some ⟨2024, 1, 1⟩ := by decide +kernel

end Date

end Scaffold.Calendar
