import CodeAtlas.Text.Split

/-!
# Instants

An instant is counted in milliseconds from the start of the year 1970. It is written as a date and a
time of day, to the millisecond.
-/

namespace CodeAtlas

/-- A point in time. -/
structure Instant where
  /-- The milliseconds since the start of the year 1970. -/
  milliseconds : Nat
  deriving DecidableEq, Repr

/-- A day of the calendar. -/
structure CalendarDay where
  /-- The year. -/
  year : Nat
  /-- The month, from one. -/
  month : Nat
  /-- The day of the month, from one. -/
  day : Nat
  deriving DecidableEq, Repr

namespace CalendarDay

/-- The day a number of days after the first of March of a year that starts a cycle of four hundred
years. Years are counted from March, so that a leap day is the last day of its year. -/
def ofDays (days : Nat) : CalendarDay :=
  let cycle := days / 146097
  let dayOfCycle := days % 146097
  let yearOfCycle :=
    (dayOfCycle - dayOfCycle / 1460 + dayOfCycle / 36524 - dayOfCycle / 146096) / 365
  let dayOfYear := dayOfCycle - (365 * yearOfCycle + yearOfCycle / 4 - yearOfCycle / 100)
  let march := (5 * dayOfYear + 2) / 153
  let month := if march < 10 then march + 3 else march - 9
  { year := cycle * 400 + yearOfCycle + (if month ≤ 2 then 1 else 0)
    month := month
    day := dayOfYear - (153 * march + 2) / 5 + 1 }

/-- The days from the first of March of the year zero to the start of the year 1970. -/
def epoch : Nat := 719468

end CalendarDay

namespace Instant

/-- A number with zeros in front. -/
def padded (width value : Nat) : String :=
  let digits := toString value
  Text.replicate (width - digits.length) '0' ++ digits

/-- The text of a year: four digits, or a sign and six. -/
def yearText (year : Nat) : String :=
  if year < 10000 then padded 4 year else "+" ++ padded 6 year

/-- The text of an instant. -/
def text (instant : Instant) : String :=
  let seconds := instant.milliseconds / 1000
  let day := CalendarDay.ofDays (CalendarDay.epoch + seconds / 86400)
  Text.join "-" [yearText day.year, padded 2 day.month, padded 2 day.day] ++ "T"
    ++ Text.join ":" [padded 2 (seconds / 3600 % 24), padded 2 (seconds / 60 % 60),
      padded 2 (seconds % 60)]
    ++ "." ++ padded 3 (instant.milliseconds % 1000) ++ "Z"

/-- A later instant. -/
def after (instant : Instant) (milliseconds : Nat) : Instant :=
  ⟨instant.milliseconds + milliseconds⟩

end Instant
end CodeAtlas
