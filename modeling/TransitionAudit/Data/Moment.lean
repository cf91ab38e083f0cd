import TransitionAudit.Number.Numeral

/-!
# Dates and moments

Calendar dates, and moments of a day with or without an offset from universal time, as rule documents
may hold them.
-/

namespace TransitionAudit

structure Date where
  year : Nat
  month : Nat
  day : Nat
  deriving DecidableEq, Repr

/-- A time of day on a date; the offset from universal time is in minutes. -/
structure Moment where
  date : Date
  hour : Nat
  minute : Nat
  second : Nat
  microsecond : Nat
  offset : Option Int
  deriving DecidableEq, Repr

/-- Why numbers are no date or moment. -/
inductive CalendarFault
  | year (n : Nat)
  | month
  | day
  | hour
  | minute
  | second
  /-- An offset of a day or more, in minutes. -/
  | offset (minutes : Int)
  deriving DecidableEq, Repr

namespace Date

def isLeap (year : Nat) : Bool := year % 4 = 0 && (year % 100 ≠ 0 || year % 400 = 0)

def monthLength (year month : Nat) : Nat :=
  if month = 2 then (if isLeap year then 29 else 28)
  else if month = 4 || month = 6 || month = 9 || month = 11 then 30
  else 31

def of? (year month day : Nat) : Except CalendarFault Date :=
  if year = 0 then .error (.year year)
  else if month = 0 || 12 < month then .error .month
  else if day = 0 || monthLength year month < day then .error .day
  else .ok ⟨year, month, day⟩

/-- The days from the first day of year one. -/
def number (d : Date) : Nat :=
  let y := d.year - 1
  let before := (List.range (d.month - 1)).foldl (fun n m => n + monthLength d.year (m + 1)) 0
  y * 365 + y / 4 - y / 100 + y / 400 + before + (d.day - 1)

/-- Year, month and day with dashes. -/
def text (d : Date) : Text :=
  Numeral.padded 4 d.year ++ "-" ++ Numeral.padded 2 d.month ++ "-" ++ Numeral.padded 2 d.day

/-- A date inside the text of a collection. -/
def literal (d : Date) : Text :=
  "datetime.date(" ++ List.intercalate ", " ([d.year, d.month, d.day].map Numeral.nat) ++ ")"

end Date

/-- A span of minutes inside the text of a collection: whole days and the seconds after them. -/
def spanLiteral (minutes : Int) : Text :=
  let days := minutes.fdiv 1440
  let seconds := minutes.fmod 1440 * 60
  let parts : List Text := (if days = 0 then [] else ["days=" ++ Numeral.int days]) ++
    (if seconds = 0 then [] else ["seconds=" ++ Numeral.int seconds])
  let span : Text := if parts.isEmpty then "0" else List.intercalate ", " parts
  "datetime.timedelta(" ++ span ++ ")"

def CalendarFault.message : CalendarFault → Text
  | .year n => "year " ++ Numeral.nat n ++ " is out of range"
  | .month => "month must be in 1..12"
  | .day => "day is out of range for month"
  | .hour => "hour must be in 0..23"
  | .minute => "minute must be in 0..59"
  | .second => "second must be in 0..59"
  | .offset minutes =>
    "offset must be a timedelta strictly between -timedelta(hours=24) and timedelta(hours=24), not "
      ++ spanLiteral minutes ++ "."

namespace Moment

def of? (date : Date) (hour minute second microsecond : Nat) (offset : Option Int) :
    Except CalendarFault Moment :=
  if 23 < hour then .error .hour
  else if 59 < minute then .error .minute
  else if 59 < second then .error .second
  else .ok ⟨date, hour, minute, second, microsecond, offset⟩

/-- An offset has to be less than a day. -/
def offset? (minutes : Int) : Except CalendarFault Int :=
  if minutes.natAbs < 1440 then .ok minutes else .error (.offset minutes)

/-- Microseconds in universal time, from the first day of year one. -/
def instant (m : Moment) : Int :=
  let minutes : Int := (m.date.number * 1440 + m.hour * 60 + m.minute : Nat) - m.offset.getD 0
  (minutes * 60 + m.second) * 1000000 + m.microsecond

/-- Date, time and offset on one line. -/
def text (m : Moment) : Text :=
  let two := Numeral.padded 2
  let fraction : Text := if m.microsecond = 0 then "" else "." ++ Numeral.padded 6 m.microsecond
  let zone : Text := match m.offset with
    | none => ""
    | some o => (if o < 0 then "-" else "+") ++ two (o.natAbs / 60) ++ ":" ++ two (o.natAbs % 60)
  m.date.text ++ " " ++ two m.hour ++ ":" ++ two m.minute ++ ":" ++ two m.second ++ fraction ++ zone

/-- A moment inside the text of a collection; seconds and their fraction are left out if zero. -/
def literal (m : Moment) : Text :=
  let tail := if m.microsecond ≠ 0 then [m.second, m.microsecond]
    else if m.second ≠ 0 then [m.second] else []
  let numbers := ([m.date.year, m.date.month, m.date.day, m.hour, m.minute] ++ tail).map Numeral.nat
  let zone : List Text := match m.offset with
    | none => []
    | some 0 => ["tzinfo=datetime.timezone.utc"]
    | some o => ["tzinfo=datetime.timezone(" ++ spanLiteral o ++ ")"]
  "datetime.datetime(" ++ List.intercalate ", " (numbers ++ zone) ++ ")"

end Moment

end TransitionAudit
