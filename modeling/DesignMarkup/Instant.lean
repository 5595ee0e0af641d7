/-!
Instants and their text: date and time of day of the Gregorian calendar in universal time, to the
millisecond.
-/

namespace DesignMarkup

/-- Seconds since the first of January 1970 and nanoseconds of the second.  A leap second is the
last second of a minute with a billion nanoseconds more. -/
structure Instant where
  seconds : Int
  nanos : Nat
deriving DecidableEq, Repr, Inhabited

/-- A day of the Gregorian calendar, the year zero and those before it included. -/
structure Day where
  year : Int
  month : Nat
  day : Nat
deriving DecidableEq, Repr

namespace Day

/-- The day a number of days after the first of January 1970.  Years are counted from March, so
that a leap day comes last, in eras of 400 years. -/
def ofCount (days : Int) : Day :=
  let shifted := days + 719468
  let era := shifted.fdiv 146097
  let dayOfEra := (shifted.fmod 146097).toNat
  let yearOfEra := (dayOfEra - dayOfEra / 1460 + dayOfEra / 36524 - dayOfEra / 146096) / 365
  let dayOfYear := dayOfEra - (365 * yearOfEra + yearOfEra / 4 - yearOfEra / 100)
  let monthFromMarch := (5 * dayOfYear + 2) / 153
  let month := if monthFromMarch < 10 then monthFromMarch + 3 else monthFromMarch - 9
  { year := era * 400 + yearOfEra + (if month ≤ 2 then 1 else 0)
    month := month
    day := dayOfYear - (153 * monthFromMarch + 2) / 5 + 1 }

example : ofCount 0 = ⟨1970, 1, 1⟩ := by decide
example : ofCount 11016 = ⟨2000, 2, 29⟩ := by decide
example : ofCount (-719529) = ⟨-1, 12, 31⟩ := by decide

end Day

namespace Instant

/-- A number with at least the given count of digits. -/
def padded (width n : Nat) : String :=
  let digits := Nat.toDigits 10 n
  String.ofList (List.replicate (width - digits.length) '0' ++ digits)

/-- A year with four digits, or with a sign and at least four digits outside of 0 to 9999. -/
def yearText (year : Int) : String :=
  if 0 ≤ year ∧ year ≤ 9999 then padded 4 year.toNat
  else (if year < 0 then "-" else "+") ++ padded 4 year.natAbs

/-- The date and time of an instant in universal time, milliseconds cut off. -/
def text (t : Instant) : String :=
  let day := Day.ofCount (t.seconds.fdiv 86400)
  let time := (t.seconds.fmod 86400).toNat
  let leap := t.nanos / Nat.pow 10 9
  yearText day.year ++ "-" ++ padded 2 day.month ++ "-" ++ padded 2 day.day ++ "T"
    ++ padded 2 (time / 3600) ++ ":" ++ padded 2 (time / 60 % 60) ++ ":"
    ++ padded 2 (time % 60 + leap) ++ "." ++ padded 3 (t.nanos % Nat.pow 10 9 / Nat.pow 10 6) ++ "Z"

/-- The milliseconds since the first of January 1970. -/
def millis (t : Instant) : Int64 :=
  Int64.ofInt (t.seconds * 1000 + t.nanos / Nat.pow 10 6)

end Instant
end DesignMarkup
