/-!
# Civil dates

Proleptic Gregorian dates and their day numbers, counted from 1970-01-01.
The conversion works in whole 400-year eras of 146097 days, so it is exact
for every year, before the common era included.
-/

namespace ChatSync.Time

/-- A calendar date: a year of the proleptic Gregorian calendar (year 0 is
1 BCE), a month from 1 to 12 and a day from 1. -/
structure Date where
  year : Int
  month : Nat
  day : Nat
  deriving DecidableEq, Repr

/-- Leap years: divisible by 4, and by 400 when divisible by 100. -/
def isLeapYear (y : Int) : Bool :=
  y % 4 == 0 && (y % 100 != 0 || y % 400 == 0)

/-- The number of days of a month; zero outside 1 to 12. -/
def daysInMonth (y : Int) (m : Nat) : Nat :=
  match m with
  | 1 | 3 | 5 | 7 | 8 | 10 | 12 => 31
  | 4 | 6 | 9 | 11 => 30
  | 2 => if isLeapYear y then 29 else 28
  | _ => 0

/-- A date names a day when its month is 1 to 12 and its day is within the month. -/
def Date.isValid (d : Date) : Bool :=
  1 ≤ d.month && d.month ≤ 12 && 1 ≤ d.day && d.day ≤ daysInMonth d.year d.month

/-- Days from 1970-01-01 to the date. Years start in March inside the
computation, so that the leap day ends the year. -/
def Date.toDays (d : Date) : Int :=
  let y : Int := if d.month ≤ 2 then d.year - 1 else d.year
  let era := y / 400
  let yoe := y - era * 400
  let mp : Int := ((d.month + 9) % 12 : Nat)
  let doy := (153 * mp + 2) / 5 + d.day - 1
  let doe := yoe * 365 + yoe / 4 - yoe / 100 + doy
  era * 146097 + doe - 719468

/-- The date of a day number, the inverse of `Date.toDays` on valid dates. -/
def Date.ofDays (z : Int) : Date :=
  let z := z + 719468
  let era := z / 146097
  let doe := z - era * 146097
  let yoe := (doe - doe / 1460 + doe / 36524 - doe / 146096) / 365
  let doy := doe - (365 * yoe + yoe / 4 - yoe / 100)
  let mp := (5 * doy + 2) / 153
  let day := doy - (153 * mp + 2) / 5 + 1
  let month := if mp < 10 then mp + 3 else mp - 9
  let year := yoe + era * 400
  { year := if month ≤ 2 then year + 1 else year, month := month.toNat, day := day.toNat }

example : (Date.mk 1970 1 1).toDays = 0 ∧ (Date.mk 2000 3 1).toDays = 11017 := by decide
example : Date.ofDays 11017 = ⟨2000, 3, 1⟩ ∧ Date.ofDays (-1) = ⟨1969, 12, 31⟩ := by decide
example : Date.ofDays (Date.mk (-1) 6 1).toDays = ⟨-1, 6, 1⟩ := by decide

end ChatSync.Time
