/-
This file holds the calendar of the engine: the proleptic Gregorian calendar
between the years -9999 and 9999, in UTC.

A calendar day is its number of days since 1970-01-01, so the day after a day is
one more and a range of days is as long as the difference of its ends. The civil
date of a day is a view of that number, and reading the view back gives the day
(`CalendarDay.ofCivil_civil`), so the view tells days apart.
-/

namespace EpochRollup

/-- Seconds in one UTC calendar day. -/
def secondsPerDay : Nat := 86400

/-! ### Days -/

/-- A UTC calendar day, counted from 1970-01-01. -/
structure CalendarDay where
  /-- Days since 1970-01-01. -/
  number : Int
deriving DecidableEq, Repr

/-- A date as year, month and day of the month. -/
structure CivilDate where
  /-- Astronomical year: 0 is the year before 1. -/
  year : Int
  /-- Month, from 1. -/
  month : Nat
  /-- Day of the month, from 1. -/
  day : Nat
deriving DecidableEq, Repr

namespace CalendarDay

/-! The calendar repeats every 400 years, which are 146097 days. Inside such an era the
years are counted from 1 March, so that the leap day is the last day of its year. -/

/-- Days from 1 March of the year 0 to 1970-01-01. -/
def epochShift : Int := 719468

/-- Days of an era before the given year of that era. -/
def daysBeforeYear (year : Int) : Int := 365 * year + year / 4 - year / 100

/-- Days of a year counted from March before its given month. -/
def daysBeforeMonth (month : Int) : Int := (153 * month + 2) / 5

/-- The year of an era that holds the given day of the era: centuries of 36524 days, of
which the fourth is a day longer, then cycles of four years, then years. -/
def yearOfEra (day : Int) : Int :=
  let century := min (day / 36524) 3
  let cycle := (day - 36524 * century) / 1461
  let year := min ((day - 36524 * century - 1461 * cycle) / 365) 3
  100 * century + 4 * cycle + year

/-- The month, counted from March, that holds the given day of the year. -/
def monthOfYear (day : Int) : Int := (5 * day + 2) / 153

/-- The civil date of a day. -/
def civil (day : CalendarDay) : CivilDate :=
  let shifted := day.number + epochShift
  let era := shifted / 146097
  let dayOfEra := shifted % 146097
  let year := yearOfEra dayOfEra
  let dayOfYear := dayOfEra - daysBeforeYear year
  let month := monthOfYear dayOfYear
  let dayOfMonth := dayOfYear - daysBeforeMonth month + 1
  let january := 10 ≤ month
  { year := year + era * 400 + (if january then 1 else 0)
    month := (if january then month - 9 else month + 3).toNat
    day := dayOfMonth.toNat }

/-- The day of a civil date. -/
def ofCivil (date : CivilDate) : CalendarDay :=
  let january := date.month ≤ 2
  let year := date.year - (if january then 1 else 0)
  let era := year / 400
  let yearOfEra := year % 400
  let month : Int := if january then (date.month : Int) + 9 else (date.month : Int) - 3
  let dayOfYear := daysBeforeMonth month + date.day - 1
  ⟨era * 146097 + daysBeforeYear yearOfEra + dayOfYear - epochShift⟩

/-! Each stage of the view has a remainder in range, so no stage loses the day. -/

theorem yearOfEra_bounds {day : Int} (positive : 0 ≤ day) (below : day < 146097) :
    0 ≤ yearOfEra day ∧ yearOfEra day < 400 := by
  simp only [yearOfEra]
  omega

theorem dayOfYear_bounds {day : Int} (positive : 0 ≤ day) (below : day < 146097) :
    0 ≤ day - daysBeforeYear (yearOfEra day) ∧
      day - daysBeforeYear (yearOfEra day) < 366 := by
  simp only [yearOfEra, daysBeforeYear]
  generalize centuryIs : min (day / 36524) 3 = century
  have centuryBounds : 0 ≤ century ∧ century ≤ 3 ∧ 0 ≤ day - 36524 * century ∧
      day - 36524 * century ≤ 36524 := by omega
  generalize dayOfCentury : day - 36524 * century = inCentury at *
  generalize cycleIs : inCentury / 1461 = cycle
  have cycleBounds : 0 ≤ cycle ∧ cycle ≤ 24 ∧ 0 ≤ inCentury - 1461 * cycle ∧
      inCentury - 1461 * cycle ≤ 1460 := by omega
  generalize dayOfCycle : inCentury - 1461 * cycle = inCycle at *
  generalize yearIs : min (inCycle / 365) 3 = year
  have yearBounds : 0 ≤ year ∧ year ≤ 3 ∧ 0 ≤ inCycle - 365 * year ∧
      inCycle - 365 * year ≤ 365 := by omega
  have leapYears : (100 * century + 4 * cycle + year) / 4 = 25 * century + cycle := by omega
  have leapCenturies : (100 * century + 4 * cycle + year) / 100 = century := by omega
  rw [leapYears, leapCenturies]
  omega

theorem monthOfYear_bounds {day : Int} (positive : 0 ≤ day) (below : day < 366) :
    0 ≤ monthOfYear day ∧ monthOfYear day < 12 ∧
      0 ≤ day - daysBeforeMonth (monthOfYear day) ∧
      day - daysBeforeMonth (monthOfYear day) < 31 := by
  simp only [monthOfYear, daysBeforeMonth]
  omega

/-- The civil date of a day reads back as the day. -/
theorem ofCivil_civil (day : CalendarDay) : ofCivil day.civil = day := by
  obtain ⟨number⟩ := day
  simp only [civil, ofCivil]
  generalize shift : number + epochShift = shifted
  have year := @yearOfEra_bounds (shifted % 146097) (by omega) (by omega)
  have yearRest := @dayOfYear_bounds (shifted % 146097) (by omega) (by omega)
  generalize yearOfEra (shifted % 146097) = yearValue at *
  generalize rest : shifted % 146097 - daysBeforeYear yearValue = dayOfYear at *
  have month := monthOfYear_bounds yearRest.1 yearRest.2
  generalize monthOfYear dayOfYear = monthValue at *
  congr 1
  by_cases late : 10 ≤ monthValue
  · have early : (monthValue - 9).toNat ≤ 2 := by omega
    have monthBack : (((monthValue - 9).toNat : Nat) : Int) + 9 = monthValue := by omega
    simp only [late, if_true, early, monthBack]
    have yearBack : (yearValue + shifted / 146097 * 400 + 1 - 1) % 400 = yearValue := by omega
    rw [yearBack]
    omega
  · have notEarly : ¬(monthValue + 3).toNat ≤ 2 := by omega
    have monthBack : (((monthValue + 3).toNat : Nat) : Int) - 3 = monthValue := by omega
    simp only [late, if_false, notEarly, monthBack]
    have yearBack : (yearValue + shifted / 146097 * 400 + 0 - 0) % 400 = yearValue := by omega
    rw [yearBack]
    omega

theorem civil_injective {left right : CalendarDay} (same : left.civil = right.civil) :
    left = right := by
  rw [← ofCivil_civil left, same, ofCivil_civil]

/-- The first day of the calendar, -9999-01-01. -/
def first : CalendarDay := ⟨-4371587⟩

/-- The last day of the calendar, 9999-12-31. -/
def last : CalendarDay := ⟨2932896⟩

/-! ### Written days -/

/-- A number written with leading zeros to the given width. A minus sign counts as one
place of the width. -/
def padded (width : Nat) (value : Int) : String :=
  let digits := toString value.natAbs
  let sign := if value < 0 then "-" else ""
  sign ++ String.ofList (List.replicate (width - sign.length - digits.length) '0') ++ digits

/-- The day as year, month and day with hyphens between them. -/
def iso (day : CalendarDay) : String :=
  let date := day.civil
  padded 4 date.year ++ "-" ++ padded 2 date.month ++ "-" ++ padded 2 date.day

/-- The day as year, month and day with nothing between them. -/
def compact (day : CalendarDay) : String :=
  let date := day.civil
  padded 4 date.year ++ padded 2 date.month ++ padded 2 date.day

/-- The place of a stored day among all stored days. Days are stored as text with four
digits for the year and a leading hyphen for a negative one, and are compared as text:
every negative year stands before every other, and negative years stand in the order of
their absolute values. -/
def textKey (day : CalendarDay) : Nat :=
  let date := day.civil
  (if date.year < 0 then 0 else 1000000000) + date.year.natAbs * 10000 + date.month * 100 + date.day

end CalendarDay

/-- Half-open range of UTC calendar days. -/
structure DayRange where
  /-- First day of the range. -/
  start : CalendarDay
  /-- First day past the range. -/
  stop : CalendarDay
deriving DecidableEq, Repr

/-! ### Instants -/

/-- A UTC instant: whole seconds since 1970-01-01 and nanoseconds within the second. -/
structure Instant where
  /-- Whole seconds since 1970-01-01T00:00:00. -/
  seconds : Int
  /-- Nanoseconds past the whole second. -/
  nanos : Nat
deriving DecidableEq, Repr

namespace Instant

/-- The first whole second of the calendar. -/
def firstSecond : Int := -377705116800

/-- The last whole second of the calendar. -/
def lastSecond : Int := 253402300799

/-- An instant lies in the calendar. -/
def InCalendar (instant : Instant) : Prop :=
  firstSecond ≤ instant.seconds ∧ instant.seconds ≤ lastSecond

instance (instant : Instant) : Decidable instant.InCalendar :=
  inferInstanceAs (Decidable (_ ∧ _))

/-- The last instant of the calendar. -/
def last : Instant := ⟨lastSecond, 999999999⟩

/-- The day of an instant. -/
def day (instant : Instant) : CalendarDay := ⟨instant.seconds / secondsPerDay⟩

/-- Whole seconds since the midnight before an instant. -/
def sinceMidnight (instant : Instant) : Nat := (instant.seconds % secondsPerDay).toNat

/-- The instant the given number of seconds later, held at the last instant of the
calendar. -/
def later (instant : Instant) (seconds : Nat) : Instant :=
  if instant.seconds + seconds ≤ lastSecond then
    ⟨instant.seconds + seconds, instant.nanos⟩
  else
    last

/-- Hour, minute and second of an instant. -/
def clockTime (instant : Instant) : Nat × Nat × Nat :=
  let second := instant.sinceMidnight
  (second / 3600, second / 60 % 60, second % 60)

end Instant

/-- A wall-clock time at a fixed distance from UTC. -/
structure LocalTime where
  /-- Local date. -/
  date : CivilDate
  /-- Local hour. -/
  hour : Nat
  /-- Local minute. -/
  minute : Nat
  /-- Local second. -/
  second : Nat
  /-- Nanoseconds past the second. -/
  nanos : Nat
  /-- Seconds the local clock is ahead of UTC. -/
  ahead : Int
deriving DecidableEq, Repr

/-- The instant of a local time. -/
def LocalTime.instant (time : LocalTime) : Instant :=
  ⟨(CalendarDay.ofCivil time.date).number * secondsPerDay + time.hour * 3600 + time.minute * 60
    + time.second - time.ahead, time.nanos⟩

end EpochRollup
