import BorderControl.Timestamp

/-!
# Timestamps of a clock

Computer clocks count the seconds since the start of 1970 in UTC. `Timestamp.ofClock?`
is the timestamp such a clock shows, up to the year 9999.
-/

namespace BorderControl

namespace Timestamp

/-- Year, month and day by the days that have gone by since the first of March of the
year 0. Years are counted from March, so that the leap day is the last day of a year,
and in cycles of 400 years, or 146097 days. -/
def dateOfDays (days : Nat) : Nat × Nat × Nat :=
  let cycle := days / 146097
  let dayOfCycle := days % 146097
  let yearOfCycle :=
    (dayOfCycle - dayOfCycle / 1460 + dayOfCycle / 36524 - dayOfCycle / 146096) / 365
  let dayOfYear := dayOfCycle - (365 * yearOfCycle + yearOfCycle / 4 - yearOfCycle / 100)
  let monthFromMarch := (5 * dayOfYear + 2) / 153
  let day := dayOfYear - (153 * monthFromMarch + 2) / 5 + 1
  let month := if monthFromMarch < 10 then monthFromMarch + 3 else monthFromMarch - 9
  (yearOfCycle + 400 * cycle + (if month ≤ 2 then 1 else 0), month, day)

/-- The days from the first of March of the year 0 to the start of 1970. -/
def daysBefore1970 : Nat := 719468

def ofClock? (seconds nanosecond : Nat) : Option Timestamp :=
  let (year, month, day) := dateOfDays (daysBefore1970 + seconds / 86400)
  let second := seconds % 86400
  ofParts? year month day (second / 3600) (second / 60 % 60) (second % 60) nanosecond 0

/-- The start of 1970. -/
def epoch : Timestamp :=
  ⟨1970, 1, 1, 0, 0, 0, 0, 0, by decide, by decide, by decide, by decide, by decide, by decide,
    by decide, by decide⟩

end Timestamp

end BorderControl
