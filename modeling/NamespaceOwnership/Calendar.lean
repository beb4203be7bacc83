/-!
# Points of time as text

Time is counted from the beginning of 1970 in the proleptic Gregorian calendar, without leap seconds. The
calendar has the years 1 to 9999, and no date is reached over a span of more days than `longestSpan`.
-/
namespace NamespaceOwnership

/-- Why a point of time has no date. -/
inductive CalendarError where
  | yearOutOfRange
  | spanTooLong (days : Int)
  deriving DecidableEq, Repr

/-- In days. -/
def Calendar.longestSpan : Nat := 999999999

/-- A number of days that takes more than 32 bits is not shown. -/
def CalendarError.message : CalendarError → String
  | .yearOutOfRange => "date value out of range"
  | .spanTooLong days =>
    if -2147483648 ≤ days ∧ days ≤ 2147483647 then
      s!"days={days}; must have magnitude <= {Calendar.longestSpan}"
    else "Python int too large to convert to C int"

namespace Calendar

structure Date where
  year : Int
  month : Nat
  day : Nat
  deriving DecidableEq, Repr

/-- The date of a day counted from 1970-01-01. Years are taken to begin in March, so that the leap day is the
last one, and are counted within eras of four hundred years. -/
def dateOfDay (day : Int) : Date :=
  let z := day + 719468
  let era := z / 146097
  let dayOfEra := (z % 146097).toNat
  let yearOfEra := (dayOfEra - dayOfEra / 1460 + dayOfEra / 36524 - dayOfEra / 146096) / 365
  let dayOfYear := dayOfEra - (365 * yearOfEra + yearOfEra / 4 - yearOfEra / 100)
  let m := (5 * dayOfYear + 2) / 153
  let month := if m < 10 then m + 3 else m - 9
  ⟨era * 400 + yearOfEra + (if month ≤ 2 then 1 else 0), month, dayOfYear - (153 * m + 2) / 5 + 1⟩

private def padded (width n : Nat) : String :=
  let digits := toString n
  String.ofList (List.replicate (width - digits.length) '0') ++ digits

/-- Date and time of day in UTC, whole seconds. -/
def ofSeconds (seconds : Int) : String :=
  let date := dateOfDay (seconds / 86400)
  let second := (seconds % 86400).toNat
  padded 4 date.year.toNat ++ "-" ++ padded 2 date.month ++ "-" ++ padded 2 date.day ++ "T" ++
    padded 2 (second / 3600) ++ ":" ++ padded 2 (second / 60 % 60) ++ ":" ++ padded 2 (second % 60) ++
    "Z"

/-- The calendar has the years 1 to 9999. -/
def holds (seconds : Int) : Bool :=
  let year := (dateOfDay (seconds / 86400)).year
  1 ≤ year && year ≤ 9999

def ofMilliseconds (t : Int) : String := ofSeconds (t / 1000)

/-- Why there is no date a span of time after a start; none if there is one. Both count so many parts of a
second. -/
def error? (parts : Nat) (start span : Int) : Option CalendarError :=
  let days := span / (86400 * parts)
  if longestSpan < days.natAbs then some (.spanTooLong days)
  else if holds ((start + span) / parts) then none
  else some .yearOutOfRange

def ofMicroseconds (t : Int) : Except CalendarError String :=
  match error? 1000000 0 t with
  | none => .ok (ofSeconds (t / 1000000))
  | some error => .error error

example : ofMilliseconds (-1) = "1969-12-31T23:59:59Z" := by decide +kernel
example : ofMilliseconds 951782400000 = "2000-02-29T00:00:00Z" := by decide +kernel
example : error? 1000 0 253402300799999 = none := by decide +kernel
example : error? 1000 0 253402300800000 = some .yearOutOfRange := by decide +kernel

end Calendar
end NamespaceOwnership
