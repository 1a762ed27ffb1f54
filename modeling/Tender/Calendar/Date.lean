/-
Days of the Gregorian calendar, years 1 to 9999.

A day is also a number, its ordinal: day one is the first of January of year one.  Main
statement: `Date.ordinal_pos`.
-/
import Tender.Text.Basic

namespace Tender

namespace Calendar

/-- Whether a year has a 29th of February. -/
def isLeap (year : Nat) : Bool :=
  year % 4 == 0 && (year % 100 != 0 || year % 400 == 0)

/-- How many days a month has. -/
def daysInMonth (year month : Nat) : Nat :=
  match month with
  | 2 => if isLeap year then 29 else 28
  | 4 | 6 | 9 | 11 => 30
  | _ => 31

/-- How many days of a year come before a month. -/
def daysBeforeMonth (year month : Nat) : Nat :=
  (List.range (month - 1)).foldl (fun days m => days + daysInMonth year (m + 1)) 0

/-- How many days come before a year. -/
def daysBeforeYear (year : Nat) : Nat :=
  (year - 1) * 365 + (year - 1) / 4 - (year - 1) / 100 + (year - 1) / 400

/-- Year, month and day are on the calendar. -/
def IsDay (year month day : Nat) : Prop :=
  1 ≤ year ∧ year ≤ 9999 ∧ 1 ≤ month ∧ month ≤ 12 ∧ 1 ≤ day ∧ day ≤ daysInMonth year month

instance (year month day : Nat) : Decidable (IsDay year month day) :=
  inferInstanceAs (Decidable (_ ∧ _))

end Calendar

open Calendar

/-- A day of the calendar. -/
structure Date where
  year : Nat
  month : Nat
  day : Nat
  isDay : IsDay year month day
  deriving DecidableEq

namespace Date

/-- The day with these numbers, if there is one. -/
def of? (year month day : Nat) : Option Date :=
  if h : IsDay year month day then some ⟨year, month, day, h⟩ else none

/-- The number of the day within its year, from one. -/
def dayOfYear (d : Date) : Nat :=
  daysBeforeMonth d.year d.month + d.day

/-- The number of the day, from the first day of year one on. -/
def ordinal (d : Date) : Nat :=
  daysBeforeYear d.year + d.dayOfYear

theorem ordinal_pos (d : Date) : 0 < d.ordinal := by
  have := d.isDay.2.2.2.2.1
  unfold ordinal dayOfYear
  omega

/-- The day of the week, Monday first, from zero. -/
def weekday (d : Date) : Nat :=
  (d.ordinal + 6) % 7

/-- The month of a day of a year (from zero), looking from `month` on. -/
def monthOf (year : Nat) : (fuel month dayIndex : Nat) → Nat × Nat
  | 0, month, i => (month, i + 1)
  | fuel + 1, month, i =>
    if i < daysInMonth year month then (month, i + 1)
    else monthOf year fuel (month + 1) (i - daysInMonth year month)

/-- The day with a given ordinal. -/
def ofOrdinal? (n : Nat) : Option Date :=
  if n = 0 then none
  else
    let n := n - 1
    let cycles := n / 146097
    let inCycle := n % 146097
    let centuries := min (inCycle / 36524) 3
    let inCentury := inCycle - centuries * 36524
    let fours := inCentury / 1461
    let inFour := inCentury % 1461
    let years := min (inFour / 365) 3
    let year := cycles * 400 + centuries * 100 + fours * 4 + years + 1
    let (month, day) := monthOf year 12 1 (inFour - years * 365)
    of? year month day

/-- The ordinal of the first of January 1970. -/
def epoch : Nat := 719163

/-- The day that is so many seconds after the start of 1970; the start itself if there is none. -/
def ofSeconds (seconds : Int) : Date :=
  (ofOrdinal? ((epoch : Int) + seconds / 86400).toNat).getD ⟨1970, 1, 1, by decide⟩

/-- The ordinal of the Monday that starts the first week of a year: the week that holds the
fourth of January. -/
def firstMonday (year : Nat) : Int :=
  let firstDay : Int := daysBeforeYear year + 1
  let weekday := (firstDay + 6) % 7
  if weekday > 3 then firstDay - weekday + 7 else firstDay - weekday

/-- The year that the week of a day belongs to, and the number of that week in it. -/
def isoWeek (d : Date) : Nat × Nat :=
  let n : Int := d.ordinal
  if n < firstMonday d.year then
    (d.year - 1, ((n - firstMonday (d.year - 1)) / 7 + 1).toNat)
  else if firstMonday (d.year + 1) ≤ n then (d.year + 1, 1)
  else (d.year, ((n - firstMonday d.year) / 7 + 1).toNat)

/-- The day of a week of a year, Monday being day one. -/
def ofIsoWeek? (year week day : Nat) : Option Date :=
  let januaryFirst := daysBeforeYear year % 7
  let long : Bool := januaryFirst == 3 || (januaryFirst == 2 && isLeap year)
  if year = 0 then none
  else if week = 0 ∨ 53 < week ∨ (week = 53 ∧ ¬ long) then none
  else if day = 0 ∨ 7 < day then none
  else ofOrdinal? (firstMonday year + ((week : Int) - 1) * 7 + (day : Int) - 1).toNat

/-- The day as year, month and day with hyphens between. -/
def toText (d : Date) : Text :=
  Text.padded 4 d.year ++ '-' :: Text.padded 2 d.month ++ '-' :: Text.padded 2 d.day

/-- The order of days. -/
def before (a b : Date) : Bool :=
  a.ordinal < b.ordinal

end Date
end Tender
