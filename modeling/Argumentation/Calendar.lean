import Argumentation.Decimal.Style

/-!
# Dates and moments

Calendar dates, and moments of a day with an optional distance from universal time. `Date.make` and
`Moment.make` accept exactly the dates of the Gregorian calendar from year 1 to 9999 and the times
of a day; everything else reads or writes values that have been accepted.
-/

namespace Argumentation

/-- A calendar date. -/
structure Date where
  year : Nat
  month : Nat
  day : Nat
  deriving DecidableEq, Repr

/-- A moment of a day. -/
structure Moment where
  date : Date
  hour : Nat
  minute : Nat
  second : Nat
  microsecond : Nat
  /-- The seconds by which the local time is ahead of universal time, where that is known. -/
  offset : Option Int
  deriving DecidableEq, Repr

/-- Why numbers do not make a date or a moment. -/
inductive CalendarFault where
  | year (n : Nat)
  | month
  | day
  | hour
  | minute
  | second
  /-- A distance from universal time of a whole day or more. -/
  | offset (seconds : Int)
  deriving DecidableEq, Repr

namespace Date

/-- Whether February has twenty-nine days. -/
def isLeap (year : Nat) : Bool :=
  year % 4 = 0 && (year % 100 ≠ 0 || year % 400 = 0)

/-- The number of days of a month. -/
def daysIn (year month : Nat) : Nat :=
  if month = 2 then (if isLeap year then 29 else 28)
  else if month = 4 || month = 6 || month = 9 || month = 11 then 30
  else 31

/-- The date with the given numbers. The year is judged first, then the month, then the day. -/
def make (year month day : Nat) : Except CalendarFault Date :=
  if year < 1 || 9999 < year then .error (.year year)
  else if month < 1 || 12 < month then .error .month
  else if day < 1 || daysIn year month < day then .error .day
  else .ok ⟨year, month, day⟩

/-- The days from the first day of year 1 to the date. -/
def ordinal (d : Date) : Nat :=
  let past := d.year - 1
  let months := (List.range (d.month - 1)).map fun m => daysIn d.year (m + 1)
  past * 365 + past / 4 - past / 100 + past / 400 + months.foldl (· + ·) 0 + d.day

/-- Year, month and day with a hyphen between them. -/
def text (d : Date) : String :=
  String.ofList (Decimal.padded 4 d.year ++ '-' :: Decimal.padded 2 d.month ++
    '-' :: Decimal.padded 2 d.day)

end Date

namespace Moment

/-- The seconds of a day. -/
def daySeconds : Nat := 86400

/-- The moment with the given numbers. The distance from universal time is judged first, then the
date, then the time from the hour down. -/
def make (year month day hour minute second microsecond : Nat) (offset : Option Int) :
    Except CalendarFault Moment := do
  if let some seconds := offset then
    if daySeconds ≤ seconds.natAbs then throw (.offset seconds)
  let date ← Date.make year month day
  if 23 < hour then throw .hour
  if 59 < minute then throw .minute
  if 59 < second then throw .second
  return ⟨date, hour, minute, second, microsecond, offset⟩

/-- The microseconds from the start of year 1 to the moment, in universal time if its distance from
that is known and in local time if it is not. -/
def instant (m : Moment) : Int :=
  let seconds : Int := (m.date.ordinal * daySeconds + m.hour * 3600 + m.minute * 60 + m.second : Nat)
  (seconds - m.offset.getD 0) * 1000000 + m.microsecond

/-- A distance from universal time as hours, minutes and, if there are any, seconds. -/
def offsetText (seconds : Int) : List Char :=
  let n := seconds.natAbs
  let sign := if seconds < 0 then '-' else '+'
  let rest := if n % 60 = 0 then [] else ':' :: Decimal.padded 2 (n % 60)
  sign :: (Decimal.padded 2 (n / 3600) ++ ':' :: Decimal.padded 2 (n / 60 % 60) ++ rest)

/-- Date and time with a space between them, the fraction of the second in six digits if there is
one, and the distance from universal time if it is known. -/
def text (m : Moment) : String :=
  let fraction := if m.microsecond = 0 then [] else '.' :: Decimal.padded 6 m.microsecond
  let clock := Decimal.padded 2 m.hour ++ ':' :: Decimal.padded 2 m.minute ++
    ':' :: Decimal.padded 2 m.second
  m.date.text ++ " " ++ String.ofList (clock ++ fraction ++ (m.offset.map offsetText).getD [])

end Moment

end Argumentation
