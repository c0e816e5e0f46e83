import Stencil.Text.Quoted

namespace Stencil

/-- Why there is no such moment. -/
inductive MomentFault where
  | year (n : Nat)
  | month
  | day
  | hour
  | minute
  | second
  /-- A zone is a whole day or more away from universal time; it is given in minutes. -/
  | offset (minutes : Int)
  /-- The last moment of all has been passed. -/
  | range
deriving DecidableEq, Repr

/-- A day of the calendar. -/
structure Day where
  year : Nat
  month : Nat
  day : Nat
deriving DecidableEq, Repr

/-- A time of day. -/
structure Clock where
  hour : Nat
  minute : Nat
  second : Nat
  micro : Nat
deriving DecidableEq, Repr

/-- How far clocks are ahead of universal time, in minutes, and the name for it. -/
structure Zone where
  minutes : Int
  name : String
deriving DecidableEq, Repr

/-- A day, or a time on a day. -/
inductive Moment where
  | day (d : Day)
  | time (d : Day) (c : Clock) (z : Option Zone)
deriving DecidableEq, Repr

def isLeapYear (year : Nat) : Bool :=
  year % 4 == 0 && (year % 100 != 0 || year % 400 == 0)

def daysOfMonth (year month : Nat) : Nat :=
  if month = 2 then (if isLeapYear year then 29 else 28)
  else if month = 4 ∨ month = 6 ∨ month = 9 ∨ month = 11 then 30 else 31

/-- How many days of a year lie in its first months, so many of them. -/
def daysOfMonths (year : Nat) : Nat → Nat
  | 0 => 0
  | month + 1 => daysOfMonths year month + daysOfMonth year (month + 1)

def lastYear : Nat := 9999

namespace Day

/-- The day of three numbers, if there is one. -/
def make (year month day : Nat) : Except MomentFault Day :=
  if year = 0 ∨ lastYear < year then .error (.year year)
  else if month = 0 ∨ 12 < month then .error .month
  else if day = 0 ∨ daysOfMonth year month < day then .error .day
  else .ok ⟨year, month, day⟩

def next (d : Day) : Except MomentFault Day :=
  if d.day < daysOfMonth d.year d.month then .ok { d with day := d.day + 1 }
  else if d.month < 12 then .ok ⟨d.year, d.month + 1, 1⟩
  else if d.year < lastYear then .ok ⟨d.year + 1, 1, 1⟩
  else .error .range

def number (d : Day) : Nat :=
  let years := d.year - 1
  365 * years + years / 4 - years / 100 + years / 400 + daysOfMonths d.year (d.month - 1) + (d.day - 1)

end Day

namespace Clock

/-- The time of four numbers, if there is one. -/
def make (hour minute second micro : Nat) : Except MomentFault Clock :=
  if 24 ≤ hour then .error .hour
  else if 60 ≤ minute then .error .minute
  else if 60 ≤ second then .error .second
  else .ok ⟨hour, minute, second, micro⟩

def seconds (c : Clock) : Nat := (c.hour * 60 + c.minute) * 60 + c.second

end Clock

/-- The zone so many minutes ahead, which have to be less than those of a day. -/
def Zone.make (minutes : Int) (name : String) : Except MomentFault Zone :=
  if 24 * 60 ≤ minutes.natAbs then .error (.offset minutes) else .ok ⟨minutes, name⟩

def Moment.later (d : Day) (c : Clock) (z : Option Zone) : Except MomentFault Moment := do
  let seconds := c.seconds + 1
  let clock : Clock := ⟨seconds / 3600 % 24, seconds / 60 % 60, seconds % 60, c.micro⟩
  let day ← if seconds < 24 * 3600 then pure d else d.next
  return .time day clock z

/-- The same moment has the same number of microseconds before it, counted in universal time. -/
def Moment.instant (d : Day) (c : Clock) (z : Zone) : Int :=
  (((d.number : Int) * 86400 + c.seconds) - z.minutes * 60) * 1000000 + c.micro

/-- Whether two moments are one. In two zones the clocks may differ; without a zone they may not. -/
def Moment.agrees : Moment → Moment → Bool
  | .day d, .day e => d == e
  | .time d c none, .time e b none => d == e && c == b
  | .time d c (some y), .time e b (some z) => instant d c y == instant e b z
  | _, _ => false

def zeroFilled (width n : Nat) : String :=
  let ds := Nat.toDigits 10 n
  String.ofList (List.replicate (width - ds.length) '0' ++ ds)

/-- The text of a length of time in days and seconds, where only the days may be negative. -/
def durationText (minutes : Int) : String :=
  let days := Int.fdiv minutes 1440
  let seconds := Int.fmod minutes 1440 * 60
  let parts := (if days = 0 then [] else ["days=" ++ toString days])
    ++ (if seconds = 0 then [] else ["seconds=" ++ toString seconds])
  "datetime.timedelta(" ++ (if parts.isEmpty then "0" else ", ".intercalate parts) ++ ")"

namespace MomentFault

def message : MomentFault → String
  | year n => "year " ++ toString n ++ " is out of range"
  | month => "month must be in 1..12"
  | day => "day is out of range for month"
  | hour => "hour must be in 0..23"
  | minute => "minute must be in 0..59"
  | second => "second must be in 0..59"
  | offset minutes =>
    "offset must be a timedelta strictly between -timedelta(hours=24) and timedelta(hours=24), not "
      ++ durationText minutes ++ "."
  | range => "date value out of range"

end MomentFault

def Day.text (d : Day) : String :=
  zeroFilled 4 d.year ++ "-" ++ zeroFilled 2 d.month ++ "-" ++ zeroFilled 2 d.day

/-- The text of a time of day; a whole number of seconds has no fraction. -/
def Clock.text (c : Clock) : String :=
  zeroFilled 2 c.hour ++ ":" ++ zeroFilled 2 c.minute ++ ":" ++ zeroFilled 2 c.second
    ++ (if c.micro = 0 then "" else "." ++ zeroFilled 6 c.micro)

def Zone.text (z : Zone) : String :=
  (if z.minutes < 0 then "-" else "+") ++ zeroFilled 2 (z.minutes.natAbs / 60) ++ ":"
    ++ zeroFilled 2 (z.minutes.natAbs % 60)

def Moment.text : Moment → String
  | .day d => d.text
  | .time d c z => d.text ++ " " ++ c.text ++ ((z.map Zone.text).getD "")

/-- The numbers of a time of day; those at the end that are zero are left out, up to the minutes. -/
def Clock.numbers (c : Clock) : List Nat :=
  if c.micro ≠ 0 then [c.hour, c.minute, c.second, c.micro]
  else if c.second ≠ 0 then [c.hour, c.minute, c.second]
  else [c.hour, c.minute]

def Zone.inner (z : Zone) : String :=
  "tzinfo=datetime.timezone(" ++ durationText z.minutes ++ ", " ++ quoted z.name ++ ")"

/-- The form of a moment inside a list or a mapping: its numbers. -/
def Moment.inner : Moment → String
  | .day d => "datetime.date(" ++ ", ".intercalate (numbers d) ++ ")"
  | .time d c z =>
    let parts := numbers d ++ c.numbers.map toString ++ (z.map Zone.inner).toList
    "datetime.datetime(" ++ ", ".intercalate parts ++ ")"
where
  numbers (d : Day) : List String := [d.year, d.month, d.day].map toString

end Stencil
