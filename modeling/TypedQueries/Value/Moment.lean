import TypedQueries.Text.Basic

/-!
# Dates and times

Days of the calendar that has always had leap years as today, and times on them, with or without
the distance from universal time.
-/

namespace TypedQueries

structure Date where
  year : Nat
  month : Nat
  day : Nat
deriving DecidableEq

structure Moment where
  date : Date
  hour : Nat
  minute : Nat
  second : Nat
  microsecond : Nat
  /-- How many minutes the clock is ahead of universal time, if that is known. -/
  offset : Option Int
deriving DecidableEq

inductive CalendarFault where
  | year (given : Nat)
  | month
  | day
  | hour
  | minute
  | second
  | offset (minutes : Int)
deriving DecidableEq

namespace Date

def isLeap (year : Nat) : Bool := year % 4 = 0 && (year % 100 ≠ 0 || year % 400 = 0)

def daysIn (year month : Nat) : Nat :=
  if month = 2 then if isLeap year then 29 else 28
  else if [4, 6, 9, 11].contains month then 30
  else 31

def fault? (d : Date) : Option CalendarFault :=
  if d.year = 0 then some (.year d.year)
  else if d.month = 0 || 12 < d.month then some .month
  else if d.day = 0 || daysIn d.year d.month < d.day then some .day
  else none

end Date

def zeroPadded (width n : Nat) : Text :=
  let digits := Text.ofNat n
  List.replicate (width - digits.length) '0' ++ digits

def Date.text (d : Date) : Text :=
  zeroPadded 4 d.year ++ "-" ++ zeroPadded 2 d.month ++ "-" ++ zeroPadded 2 d.day

def Date.shown (d : Date) : Text :=
  "datetime.date(" ++ Text.join ", " ([d.year, d.month, d.day].map Text.ofNat) ++ ")"

namespace Moment

def minutesPerDay : Nat := 1440

/-- The first fault of a time; that of the distance from universal time comes before the others. -/
def fault? (m : Moment) : Option CalendarFault :=
  let outOfRange := m.offset.filter fun o => minutesPerDay ≤ o.natAbs
  match outOfRange with
  | some o => some (.offset o)
  | none =>
    match m.date.fault? with
    | some e => some e
    | none =>
      if 23 < m.hour then some .hour
      else if 59 < m.minute then some .minute
      else if 59 < m.second then some .second
      else none

def offsetText (o : Int) : Text :=
  (if o < 0 then '-' else '+') :: zeroPadded 2 (o.natAbs / 60) ++ ":" ++
    zeroPadded 2 (o.natAbs % 60)

def text (m : Moment) : Text :=
  m.date.text ++ " " ++ zeroPadded 2 m.hour ++ ":" ++ zeroPadded 2 m.minute ++ ":" ++
    zeroPadded 2 m.second ++
    (if m.microsecond = 0 then [] else '.' :: zeroPadded 6 m.microsecond) ++
    (match m.offset with
      | some o => offsetText o
      | none => [])

/-- How a stretch of minutes is shown: whole days, which may be negative, and the seconds that
remain. -/
def shownMinutes (minutes : Int) : Text :=
  let days := Int.fdiv minutes minutesPerDay
  let seconds := 60 * Int.fmod minutes minutesPerDay
  let parts : List Text :=
    (if days = 0 then [] else ["days=" ++ Text.ofInt days]) ++
      (if seconds = 0 then [] else ["seconds=" ++ Text.ofInt seconds])
  "datetime.timedelta(" ++ (if parts = [] then ['0'] else Text.join ", " parts) ++ ")"

def shownOffset (o : Int) : Text :=
  if o = 0 then "datetime.timezone.utc" else "datetime.timezone(" ++ shownMinutes o ++ ")"

def shown (m : Moment) : Text :=
  let parts :=
    [m.date.year, m.date.month, m.date.day, m.hour, m.minute] ++
      (if m.second = 0 && m.microsecond = 0 then [] else [m.second]) ++
      (if m.microsecond = 0 then [] else [m.microsecond])
  "datetime.datetime(" ++ Text.join ", " (parts.map Text.ofNat) ++
    (match m.offset with
      | some o => ", tzinfo=" ++ shownOffset o
      | none => []) ++ ")"

end Moment

def CalendarFault.message : CalendarFault → Text
  | year given => "year " ++ Text.ofNat given ++ " is out of range"
  | month => "month must be in 1..12"
  | day => "day is out of range for month"
  | hour => "hour must be in 0..23"
  | minute => "minute must be in 0..59"
  | second => "second must be in 0..59"
  | offset minutes =>
    "offset must be a timedelta strictly between -timedelta(hours=24) and timedelta(hours=24), not "
      ++ Moment.shownMinutes minutes

end TypedQueries
