/-!
Points in time as text.

A time is a number of seconds since 1970 began and of nanoseconds after that. Its text has the date,
the time of day in UTC and the fraction with as few groups of three digits as show it.
-/

namespace CallGraph.Text

/-- A number in decimal digits, filled up with zeros to a width. -/
def padded (width n : Nat) : String :=
  let digits := Nat.repr n
  String.ofList (List.replicate (width - digits.length) '0') ++ digits

/-- A day of the Gregorian calendar. -/
structure Date where
  year : Nat
  month : Nat
  day : Nat
  deriving DecidableEq, Repr

/-- The date that lies a number of days after the first of January 1970. Years are counted from the
first of March, so that a leap day ends its year; 400 of them have 146097 days. -/
def Date.ofDays (days : Nat) : Date :=
  let shifted := days + 719468
  let era := shifted / 146097
  let dayOfEra := shifted % 146097
  let yearOfEra := (dayOfEra - dayOfEra / 1460 + dayOfEra / 36524 - dayOfEra / 146096) / 365
  let dayOfYear := dayOfEra - (365 * yearOfEra + yearOfEra / 4 - yearOfEra / 100)
  let monthFromMarch := (5 * dayOfYear + 2) / 153
  let month := if monthFromMarch < 10 then monthFromMarch + 3 else monthFromMarch - 9
  { year := yearOfEra + era * 400 + (if month ≤ 2 then 1 else 0)
    month
    day := dayOfYear - (153 * monthFromMarch + 2) / 5 + 1 }

/-- A fraction of a second, in as few groups of three digits as show it. -/
def fraction (nanos : Nat) : String :=
  if nanos = 0 then ""
  else if nanos % 1000000 = 0 then "." ++ padded 3 (nanos / 1000000)
  else if nanos % 1000 = 0 then "." ++ padded 6 (nanos / 1000)
  else "." ++ padded 9 nanos

def timestamp (seconds nanos : Nat) : String :=
  let date := Date.ofDays (seconds / 86400)
  let clock := seconds % 86400
  padded 4 date.year ++ "-" ++ padded 2 date.month ++ "-" ++ padded 2 date.day ++ "T" ++
    padded 2 (clock / 3600) ++ ":" ++ padded 2 (clock / 60 % 60) ++ ":" ++ padded 2 (clock % 60) ++
    fraction nanos ++ "+00:00"

example : timestamp 0 0 = "1970-01-01T00:00:00+00:00" := by decide +kernel
example : timestamp 951782400 5000000 = "2000-02-29T00:00:00.005+00:00" := by decide +kernel

end CallGraph.Text
