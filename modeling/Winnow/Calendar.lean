/-
Winnow/Calendar.lean

Dates and times of the proleptic Gregorian calendar.  A `Date` lies in one of
the years 1 to 9999; `Calendar.yearMonthDay` knows every year, those before the
year 1 as zero and negative numbers.

A day is counted from the first of March of the year 0, so that the leap day
is the last of its year; `dayNumber` and `yearMonthDay` convert.  A time may
carry an offset from universal time, in seconds, and two times with offsets
are the same when they name the same instant.
-/

namespace Winnow

/-- A day. -/
structure Date where
  year : Nat
  month : Nat
  day : Nat
  deriving DecidableEq, Repr

/-- A day and a time of day, perhaps with an offset from universal time in
seconds. -/
structure DateTime where
  date : Date
  hour : Nat
  minute : Nat
  second : Nat
  microsecond : Nat
  offset : Option Int
  deriving DecidableEq, Repr

/-- Why numbers make no date or time. -/
inductive CalendarFault
  | year (n : Nat)
  | month
  | day
  | hour
  | minute
  | second
  | offset (seconds : Int)
  deriving DecidableEq, Repr

namespace Calendar

/-! ### Days -/

/-- Whether a year has a leap day. -/
def isLeap (year : Nat) : Bool := year % 4 == 0 && (year % 100 != 0 || year % 400 == 0)

/-- The number of days of a month. -/
def daysIn (year month : Nat) : Nat :=
  if month = 2 then if isLeap year then 29 else 28
  else if month = 4 || month = 6 || month = 9 || month = 11 then 30
  else 31

/-- Days since 1970-01-01. -/
def dayNumber (d : Date) : Int :=
  -- Years and months counted from March.
  let y : Int := if d.month ≤ 2 then (d.year : Int) - 1 else d.year
  let m : Int := if d.month ≤ 2 then (d.month : Int) + 9 else d.month - 3
  365 * y + y / 4 - y / 100 + y / 400 + (153 * m + 2) / 5 + d.day - 1 - 719468

/-- Year, month and day a number of days after 1970-01-01. -/
def yearMonthDay (n : Int) : Int × Nat × Nat :=
  let days := n + 719468
  let era := days / 146097
  let inEra := days % 146097
  let yearOfEra := (inEra - inEra / 1460 + inEra / 36524 - inEra / 146096) / 365
  let dayOfYear := inEra - (365 * yearOfEra + yearOfEra / 4 - yearOfEra / 100)
  let month := (5 * dayOfYear + 2) / 153
  let day := dayOfYear - (153 * month + 2) / 5 + 1
  let year := yearOfEra + era * 400
  if month < 10 then (year, (month + 3).toNat, day.toNat)
  else (year + 1, (month - 9).toNat, day.toNat)

/-- Seconds of a day, as hours, minutes and seconds. -/
def clock (seconds : Nat) : Nat × Nat × Nat := (seconds / 3600, seconds / 60 % 60, seconds % 60)

/-! ### Texts -/

/-- A number with zeros in front up to a width. -/
def padded (width n : Nat) : String :=
  let digits := toString n
  String.ofList (List.replicate (width - digits.length) '0') ++ digits

/-- The universal time a number of seconds after 1970-01-01.  The year has as
many digits as it needs. -/
def instantText (n : Int) : String :=
  let (year, month, day) := yearMonthDay (n / 86400)
  let (h, m, s) := clock (n % 86400).toNat
  s!"{year}-{padded 2 month}-{padded 2 day} {padded 2 h}:{padded 2 m}:{padded 2 s}"

/-- An offset: sign, hours, minutes, and seconds when there are any. -/
def offsetText (offset : Int) : String :=
  let (h, m, s) := clock offset.natAbs
  (if offset < 0 then "-" else "+") ++ padded 2 h ++ ":" ++ padded 2 m
    ++ (if s = 0 then "" else ":" ++ padded 2 s)

/-- The text of a length of time when it is a part of another text. -/
def durationText (seconds : Int) : String :=
  let days := seconds / 86400
  let rest := seconds % 86400
  let parts := (if days = 0 then [] else ["days=" ++ toString days])
    ++ (if rest = 0 then [] else ["seconds=" ++ toString rest])
  "datetime.timedelta(" ++ ", ".intercalate parts ++ ")"

/-- The text of an offset when it is a part of another text. -/
def zoneText (offset : Int) : String :=
  if offset = 0 then "datetime.timezone.utc"
  else "datetime.timezone(" ++ durationText offset ++ ")"

end Calendar

open Calendar

namespace CalendarFault

/-- What is said about numbers that make no date or time. -/
def message : CalendarFault → String
  | year n => s!"year {n} is out of range"
  | month => "month must be in 1..12"
  | day => "day is out of range for month"
  | hour => "hour must be in 0..23"
  | minute => "minute must be in 0..59"
  | second => "second must be in 0..59"
  | offset seconds =>
    "offset must be a timedelta strictly between -timedelta(hours=24) and timedelta(hours=24), not "
      ++ durationText seconds ++ "."

end CalendarFault

namespace Date

/-- The date with the given numbers. -/
def ofNumbers (year month day : Nat) : Except CalendarFault Date :=
  if year < 1 || 9999 < year then .error (.year year)
  else if month < 1 || 12 < month then .error .month
  else if day < 1 || daysIn year month < day then .error .day
  else .ok ⟨year, month, day⟩

/-- Year, month and day joined by hyphens. -/
def text (d : Date) : String :=
  padded 4 d.year ++ "-" ++ padded 2 d.month ++ "-" ++ padded 2 d.day

/-- The text of a date when it is a part of another text. -/
def nestedText (d : Date) : String := s!"datetime.date({d.year}, {d.month}, {d.day})"

end Date

namespace DateTime

/-- The time with the given numbers and offset. -/
def ofNumbers (date : Date) (hour minute second microsecond : Nat) (offset : Option Int) :
    Except CalendarFault DateTime :=
  if 23 < hour then .error .hour
  else if 59 < minute then .error .minute
  else if 59 < second then .error .second
  else .ok ⟨date, hour, minute, second, microsecond, offset⟩

/-- The time of day, with microseconds when there are any. -/
def clockText (t : DateTime) : String :=
  padded 2 t.hour ++ ":" ++ padded 2 t.minute ++ ":" ++ padded 2 t.second
    ++ (if t.microsecond = 0 then "" else "." ++ padded 6 t.microsecond)

/-- Day, time and offset, with the given text between day and time. -/
def textWith (separator : String) (t : DateTime) : String :=
  t.date.text ++ separator ++ t.clockText ++ ((t.offset.map offsetText).getD "")

/-- Day, time and offset. -/
def text (t : DateTime) : String := t.textWith " "

/-- The text of a time when it is a part of another text: trailing seconds and
microseconds of zero are left out. -/
def nestedText (t : DateTime) : String :=
  let seconds :=
    if t.microsecond ≠ 0 then [t.second, t.microsecond]
    else if t.second ≠ 0 then [t.second]
    else []
  let numbers := [t.date.year, t.date.month, t.date.day, t.hour, t.minute] ++ seconds
  "datetime.datetime(" ++ ", ".intercalate (numbers.map toString)
    ++ ((t.offset.map fun o => ", tzinfo=" ++ zoneText o).getD "") ++ ")"

/-- Seconds since 1970-01-01 by the clock shown, offset and microseconds left
out. -/
def shownSeconds (t : DateTime) : Int :=
  dayNumber t.date * 86400 + t.hour * 3600 + t.minute * 60 + t.second

/-- Whether two times are the same: the same numbers when neither has an
offset, the same instant when both have one. -/
def same (t u : DateTime) : Bool :=
  match t.offset, u.offset with
  | none, none => t == u
  | some a, some b => t.shownSeconds - a == u.shownSeconds - b && t.microsecond == u.microsecond
  | _, _ => false

end DateTime

end Winnow
