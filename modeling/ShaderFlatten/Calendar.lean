import ShaderFlatten.Text.Basic

/-!
# Dates and times of day

A date of the Gregorian calendar, and a moment: a date with a time of day and, if it is known, the offset
from universal time.  Both exist only for years from 1 to 9999.

    Date.make? y m d      the date, or what is wrong with it
    Moment.sameInstant    moments with offsets are compared as instants
-/

namespace ShaderFlatten

/-- What is wrong with a date, a time of day or an offset. -/
inductive CalendarFault where
  | year (n : Nat)
  | month
  | day
  | hour
  | minute
  | second
  /-- an offset of so many minutes, which is a day or more -/
  | offset (minutes : Int)
  deriving DecidableEq, Repr

/-- A number in decimal, with leading zeros up to a width. -/
def padded (width n : Nat) : String :=
  let digits := Nat.toDigits 10 n
  String.ofList (List.replicate (width - digits.length) '0' ++ digits)

/-- A difference of so many minutes, as messages show it: whole days, which may be negative, and the
seconds left. -/
def shownMinutes (minutes : Int) : String :=
  let days := minutes / 1440
  let seconds := minutes % 1440 * 60
  let parts :=
    (if days = 0 then [] else ["days=" ++ decimal days])
      ++ (if seconds = 0 then [] else ["seconds=" ++ decimal seconds])
  "datetime.timedelta(" ++ (if parts.isEmpty then "0" else ", ".intercalate parts) ++ ")"

/-- The wording of a fault. -/
def CalendarFault.message : CalendarFault → String
  | year n => "year " ++ decimal n ++ " is out of range"
  | month => "month must be in 1..12"
  | day => "day is out of range for month"
  | hour => "hour must be in 0..23"
  | minute => "minute must be in 0..59"
  | second => "second must be in 0..59"
  | offset minutes =>
    "offset must be a timedelta strictly between -timedelta(hours=24) and timedelta(hours=24), not "
      ++ shownMinutes minutes ++ "."

/-- A date. -/
structure Date where
  year : Nat
  month : Nat
  day : Nat
  deriving DecidableEq, Repr

namespace Date

/-- Every fourth year is a leap year, but of the full centuries only every fourth one. -/
def isLeap (year : Nat) : Bool := year % 4 = 0 && (year % 100 ≠ 0 || year % 400 = 0)

/-- The number of days of a month. -/
def daysInMonth (year month : Nat) : Nat :=
  if month = 2 then if isLeap year then 29 else 28
  else if month = 4 || month = 6 || month = 9 || month = 11 then 30
  else 31

/-- The date of a year, a month and a day. -/
def make? (year month day : Nat) : Except CalendarFault Date :=
  if year < 1 || 9999 < year then .error (.year year)
  else if month < 1 || 12 < month then .error .month
  else if day < 1 || daysInMonth year month < day then .error .day
  else .ok ⟨year, month, day⟩

/-- The number of days up to a date, the first day of year 1 being day 1. -/
def ordinal (d : Date) : Nat :=
  let years := d.year - 1
  let months := (List.range (d.month - 1)).foldl (fun n i => n + daysInMonth d.year (i + 1)) 0
  365 * years + years / 4 - years / 100 + years / 400 + months + d.day

/-- A date as text. -/
def text (d : Date) : String := padded 4 d.year ++ "-" ++ padded 2 d.month ++ "-" ++ padded 2 d.day

/-- The numbers of a date. -/
def numbers (d : Date) : List Nat := [d.year, d.month, d.day]

/-- A date as messages show it. -/
def display (d : Date) : String :=
  "datetime.date(" ++ ", ".intercalate (d.numbers.map fun (n : Nat) => decimal n) ++ ")"

end Date

/-- A moment. -/
structure Moment where
  date : Date
  hour : Nat
  minute : Nat
  second : Nat
  microsecond : Nat
  /-- how many minutes the time of day is ahead of universal time -/
  offset : Option Int
  deriving DecidableEq, Repr

namespace Moment

/-- An offset of less than a day. -/
def checkOffset (minutes : Int) : Except CalendarFault Unit :=
  if minutes.natAbs < 1440 then .ok () else .error (.offset minutes)

/-- The moment of a date, given by its three numbers, and a time of day.  The offset is checked first. -/
def make? (date time : Nat × Nat × Nat) (microsecond : Nat) (offset : Option Int) :
    Except CalendarFault Moment := do
  if let some minutes := offset then checkOffset minutes
  let (hour, minute, second) := time
  let d ← Date.make? date.1 date.2.1 date.2.2
  if 23 < hour then throw .hour
  if 59 < minute then throw .minute
  if 59 < second then throw .second
  return ⟨d, hour, minute, second, microsecond, offset⟩

/-- Microseconds since the first day, by the clock of the moment. -/
def clock (m : Moment) : Int :=
  ((((m.date.ordinal * 24 + m.hour) * 60 + m.minute) * 60 + m.second) * 1000000 + m.microsecond : Nat)

/-- Moments with offsets are the same if they are the same instant; without, if their clocks agree. -/
def sameInstant (m n : Moment) : Bool :=
  match m.offset, n.offset with
  | none, none => m.clock = n.clock
  | some a, some b => m.clock - a * 60000000 = n.clock - b * 60000000
  | _, _ => false

/-- An offset as text. -/
def offsetText (minutes : Int) : String :=
  (if minutes < 0 then "-" else "+") ++ padded 2 (minutes.natAbs / 60) ++ ":"
    ++ padded 2 (minutes.natAbs % 60)

/-- A moment as text; a whole second needs no fraction. -/
def text (m : Moment) : String :=
  m.date.text ++ " " ++ padded 2 m.hour ++ ":" ++ padded 2 m.minute ++ ":" ++ padded 2 m.second
    ++ (if m.microsecond = 0 then "" else "." ++ padded 6 m.microsecond)
    ++ (m.offset.map offsetText).getD ""

/-- The numbers of a moment; seconds and their fraction are left out if nothing follows that is not
zero. -/
def numbers (m : Moment) : List Nat :=
  m.date.numbers ++ [m.hour, m.minute]
    ++ (if m.microsecond ≠ 0 then [m.second, m.microsecond]
      else if m.second ≠ 0 then [m.second] else [])

/-- An offset as messages show it. -/
def shownOffset (minutes : Int) : String :=
  if minutes = 0 then "datetime.timezone.utc"
  else "datetime.timezone(" ++ shownMinutes minutes ++ ")"

/-- A moment as messages show it. -/
def display (m : Moment) : String :=
  "datetime.datetime(" ++ ", ".intercalate (m.numbers.map fun (n : Nat) => decimal n)
    ++ (m.offset.map fun minutes => ", tzinfo=" ++ shownOffset minutes).getD "" ++ ")"

end Moment

end ShaderFlatten
