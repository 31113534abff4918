/-!
# Dates and moments

A date of the proleptic Gregorian calendar, years 1 to 9999, and a moment: a date, a time of day down to
the microsecond, and optionally the distance of its zone from universal time in minutes.
-/

namespace CommentStyle

structure Date where
  year : Nat
  month : Nat
  day : Nat
deriving DecidableEq, Repr

structure Moment where
  date : Date
  hour : Nat
  minute : Nat
  second : Nat
  microsecond : Nat
  /-- Minutes ahead of universal time; absent for a moment without a zone. -/
  zone : Option Int
deriving DecidableEq, Repr

/-- Why numbers do not make a date or a moment. -/
inductive CalendarFault where
  | year (n : Nat)
  | month
  | day
  | hour
  | minute
  | second
  | zone (minutes : Int)
deriving DecidableEq, Repr

namespace Calendar

def leap (year : Nat) : Bool := year % 4 = 0 && (year % 100 ≠ 0 || year % 400 = 0)

def monthDays (year month : Nat) : Nat :=
  if month = 2 then (if leap year then 29 else 28)
  else if month = 4 ∨ month = 6 ∨ month = 9 ∨ month = 11 then 30
  else 31

/-- A number with zeros in front up to the width. -/
def padded (width n : Nat) : String := String.ofList ((Nat.toDigits 10 n).leftpad width '0')

/-- A span of minutes as whole days, of either sign, and the seconds beyond them. -/
def spanText (minutes : Int) : String :=
  let days := Int.fdiv minutes 1440
  let seconds := Int.fmod minutes 1440 * 60
  let parts := (if days = 0 then [] else ["days=" ++ toString days])
    ++ (if seconds = 0 then [] else ["seconds=" ++ toString seconds])
  "datetime.timedelta(" ++ (if parts.isEmpty then "0" else ", ".intercalate parts) ++ ")"

end Calendar

namespace CalendarFault

def message : CalendarFault → String
  | year n => "year " ++ toString n ++ " is out of range"
  | month => "month must be in 1..12"
  | day => "day is out of range for month"
  | hour => "hour must be in 0..23"
  | minute => "minute must be in 0..59"
  | second => "second must be in 0..59"
  | zone minutes =>
    "offset must be a timedelta strictly between -timedelta(hours=24) and timedelta(hours=24), not "
      ++ Calendar.spanText minutes ++ "."

end CalendarFault

namespace Date

def make (year month day : Nat) : Except CalendarFault Date :=
  if year < 1 ∨ 9999 < year then .error (.year year)
  else if month < 1 ∨ 12 < month then .error .month
  else if day < 1 ∨ Calendar.monthDays year month < day then .error .day
  else .ok ⟨year, month, day⟩

def text (d : Date) : String :=
  Calendar.padded 4 d.year ++ "-" ++ Calendar.padded 2 d.month ++ "-" ++ Calendar.padded 2 d.day

/-- The form in which a date appears inside a shown value. -/
def shown (d : Date) : String :=
  "datetime.date(" ++ toString d.year ++ ", " ++ toString d.month ++ ", " ++ toString d.day ++ ")"

/-- Days from the first of January of year 1. -/
def ordinal (d : Date) : Nat :=
  let y := d.year - 1
  let before := ((List.range (d.month - 1)).map fun m => Calendar.monthDays d.year (m + 1)).foldl (· + ·) 0
  y * 365 + y / 4 - y / 100 + y / 400 + before + d.day

end Date

namespace Moment

/-- The zone is judged first, then the date, then the time of day. -/
def make (year month day hour minute second microsecond : Nat) (zone : Option Int) :
    Except CalendarFault Moment := do
  if let some z := zone then
    if 1440 ≤ z.natAbs then throw (.zone z)
  let date ← Date.make year month day
  if 23 < hour then throw .hour
  if 59 < minute then throw .minute
  if 59 < second then throw .second
  return { date, hour, minute, second, microsecond, zone }

def zoneText (minutes : Int) : String :=
  (if minutes < 0 then "-" else "+") ++ Calendar.padded 2 (minutes.natAbs / 60) ++ ":"
    ++ Calendar.padded 2 (minutes.natAbs % 60)

def textWith (separator : String) (m : Moment) : String :=
  m.date.text ++ separator ++ Calendar.padded 2 m.hour ++ ":" ++ Calendar.padded 2 m.minute ++ ":"
    ++ Calendar.padded 2 m.second
    ++ (if m.microsecond = 0 then "" else "." ++ Calendar.padded 6 m.microsecond)
    ++ (m.zone.map zoneText).getD ""

/-- The form in which a moment appears inside a shown value: trailing seconds and microseconds that are
zero are left out. -/
def shown (m : Moment) : String :=
  let numbers := [m.date.year, m.date.month, m.date.day, m.hour, m.minute]
    ++ (if m.second = 0 ∧ m.microsecond = 0 then []
        else if m.microsecond = 0 then [m.second] else [m.second, m.microsecond])
  let zone := match m.zone with
    | none => []
    | some 0 => ["tzinfo=datetime.timezone.utc"]
    | some z => ["tzinfo=datetime.timezone(" ++ Calendar.spanText z ++ ")"]
  "datetime.datetime(" ++ ", ".intercalate (numbers.map toString ++ zone) ++ ")"

/-- Microseconds of universal time; a moment without a zone is taken as it stands. -/
def instant (m : Moment) : Int :=
  let minutes : Int := (m.date.ordinal * 24 + m.hour) * 60 + m.minute - m.zone.getD 0
  (minutes * 60 + m.second) * 1000000 + m.microsecond

/-- Two moments with zones agree as instants, two without as written, and mixed ones never. -/
def same (a b : Moment) : Bool := a.zone.isSome == b.zone.isSome && a.instant == b.instant

end Moment

end CommentStyle
