/-!
Points in time, and how log entries show them.
-/
namespace ShaderBuild

/-- Nanoseconds since the epoch. -/
abbrev Instant := Int

namespace Instant

/-- The year, the month and the day of the month of a day that is counted from the epoch. Years are
counted from March on, so that a leap day is the last day of its year. -/
def date (day : Int) : Int × Int × Int :=
  let shifted := day + 719468
  let dayOfEra := shifted % 146097
  let yearOfEra :=
    (dayOfEra - dayOfEra / 1460 + dayOfEra / 36524 - dayOfEra / 146096) / 365
  let dayOfYear := dayOfEra - (365 * yearOfEra + yearOfEra / 4 - yearOfEra / 100)
  let month := (5 * dayOfYear + 2) / 153
  let dayOfMonth := dayOfYear - (153 * month + 2) / 5 + 1
  let year := yearOfEra + shifted / 146097 * 400
  if month < 10 then (year, month + 3, dayOfMonth) else (year + 1, month - 9, dayOfMonth)

/-- A number with zeros in front up to a width. -/
def padded (width : Nat) (number : Int) : String :=
  let digits := toString number
  "".pushn '0' (width - digits.length) ++ digits

/-- Date and time of day, to the millisecond. -/
def stamp (time : Instant) : String :=
  let milliseconds := time / 1000000
  let seconds := milliseconds / 1000
  let (year, month, day) := date (seconds / 86400)
  s!"{padded 4 year}-{padded 2 month}-{padded 2 day} "
    ++ s!"{padded 2 (seconds / 3600 % 24)}:{padded 2 (seconds / 60 % 60)}:{padded 2 (seconds % 60)}"
    ++ s!".{padded 3 (milliseconds % 1000)}"

end Instant

end ShaderBuild
