/-!
Points in time on the calendar.

A count of days is taken apart from the first of March of the year 0 on, so that a leap day is the
last day of its year and the lengths of the months before it follow a single rule.
-/

namespace ParamSweep

/-- A point in time, as reports write it and as the names of directories do. -/
structure Moment where
  text : String := "1970-01-01T00:00:00+00:00"
  stamp : String := "197001010000"
  deriving Inhabited

/-- A day of the calendar. -/
structure Day where
  year : Nat
  month : Nat
  day : Nat
  deriving DecidableEq, Inhabited

namespace Day

/-- The days from the first of March of the year 0 to the start of 1970. -/
def beforeEpoch : Nat := 719468

/-- The days of 400 years. -/
def era : Nat := 146097

/-- The full years in a count of days within 400 years. -/
def fullYears (days : Nat) : Nat := (days - days / 1460 + days / 36524 - days / 146096) / 365

/-- The day that comes so many days after the start of 1970. -/
def ofEpoch (days : Nat) : Day :=
  let days := days + beforeEpoch
  let inEra := days % era
  let years := fullYears inEra
  let inYear := inEra - (365 * years + years / 4 - years / 100)
  let month := (5 * inYear + 2) / 153
  let january := month ≥ 10
  { year := days / era * 400 + years + if january then 1 else 0
    month := if january then month - 9 else month + 3
    day := inYear - (153 * month + 2) / 5 + 1 }

end Day

namespace Moment

/-- A number with zeros before it up to a width. -/
def padded (width n : Nat) : String :=
  let digits := toString n
  String.ofList (List.replicate (width - digits.length) '0') ++ digits

/-- The part of a second, in as many groups of three digits as it needs. -/
def fraction (nanoseconds : Nat) : String :=
  if nanoseconds = 0 then ""
  else if nanoseconds % 1000000 = 0 then "." ++ padded 3 (nanoseconds / 1000000)
  else if nanoseconds % 1000 = 0 then "." ++ padded 6 (nanoseconds / 1000)
  else "." ++ padded 9 nanoseconds

/-- The moment that comes so many nanoseconds after the start of 1970. -/
def ofEpoch (nanoseconds : Nat) : Moment :=
  let seconds := nanoseconds / 1000000000
  let d := Day.ofEpoch (seconds / 86400)
  let hour := padded 2 (seconds / 3600 % 24)
  let minute := padded 2 (seconds / 60 % 60)
  let year := padded 4 d.year
  let month := padded 2 d.month
  let day := padded 2 d.day
  { text := year ++ "-" ++ month ++ "-" ++ day ++ "T" ++ hour ++ ":" ++ minute ++ ":" ++
      padded 2 (seconds % 60) ++ fraction (nanoseconds % 1000000000) ++ "+00:00"
    stamp := year ++ month ++ day ++ hour ++ minute }

end Moment

end ParamSweep
