import Stencil.Data.Moment
import Stencil.Decimal.Notation

namespace Stencil.Yaml

/-- A zone as it is written. -/
structure ZoneText where
  negative : Bool := false
  hours : Nat := 0
  minutes : Nat := 0
  text : String
deriving DecidableEq, Repr

/-- A time of day as it is written. -/
structure ClockText where
  hour : Nat
  minute : Nat
  second : Nat
  fraction : List Char := []
  zone : Option ZoneText := none
deriving DecidableEq, Repr

/-- A date as it is written, with a time of day or without. -/
structure Timestamp where
  year : Nat
  month : Nat
  day : Nat
  clock : Option ClockText := none
deriving DecidableEq, Repr

/-- All digits at the beginning of a text as a number, if there are so many, and what is left. -/
def numberAt? (least most : Nat) (cs : List Char) : Option (Nat × List Char) :=
  let ds := cs.takeWhile Char.isDigit
  if least ≤ ds.length ∧ ds.length ≤ most then some (digitsValue ds, cs.drop ds.length) else none

def behind? (c : Char) : List Char → Option (List Char)
  | d :: cs => if d = c then some cs else none
  | [] => none

def isBlankOrTab (c : Char) : Bool := c == ' ' || c == '\t'

/-- Reads a zone, up to the end of a text: a `Z`, or a sign, hours and perhaps minutes. -/
def ZoneText.read? (cs : List Char) : Option ZoneText :=
  let text := String.ofList cs
  match cs with
  | ['Z'] => some { text }
  | sign :: ds => do
    if sign ≠ '-' ∧ sign ≠ '+' then none
    let (hours, rest) ← numberAt? 1 2 ds
    let (minutes, rest) ← if rest = [] then some (0, []) else numberAt? 2 2 (← behind? ':' rest)
    if rest = [] then some ⟨sign == '-', hours, minutes, text⟩ else none
  | [] => none

def ClockText.read? (cs : List Char) : Option ClockText := do
  let (hour, rest) ← numberAt? 1 2 cs
  let (minute, rest) ← numberAt? 2 2 (← behind? ':' rest)
  let (second, rest) ← numberAt? 2 2 (← behind? ':' rest)
  let (fraction, rest) := match rest with
    | '.' :: ds => (ds.takeWhile Char.isDigit, ds.dropWhile Char.isDigit)
    | _ => ([], rest)
  if rest = [] then return { hour, minute, second, fraction }
  else return { hour, minute, second, fraction, zone := ← ZoneText.read? (rest.dropWhile isBlankOrTab) }

namespace Timestamp

def readTime? (cs : List Char) : Option Timestamp := do
  let (year, rest) ← numberAt? 4 4 cs
  let (month, rest) ← numberAt? 1 2 (← behind? '-' rest)
  let (day, rest) ← numberAt? 1 2 (← behind? '-' rest)
  let clock ← match rest with
    | c :: cs =>
      if c = 'T' ∨ c = 't' then some cs
      else if isBlankOrTab c then some (cs.dropWhile isBlankOrTab)
      else none
    | [] => none
  return ⟨year, month, day, ← ClockText.read? clock⟩

/-- Reads a date, which may be followed by a time of day. By itself it has to be of full width. -/
def read? (cs : List Char) : Option Timestamp :=
  match readTime? cs with
  | some t => some t
  | none => do
    let (year, rest) ← numberAt? 4 4 cs
    let (month, rest) ← numberAt? 2 2 (← behind? '-' rest)
    let (day, rest) ← numberAt? 2 2 (← behind? '-' rest)
    if rest = [] then some { year, month, day } else none

end Timestamp

/-- The nearest number of millionths for the digits behind a point: a seventh digit decides. -/
def millionths (fraction : List Char) : Nat :=
  let ds := fraction.take 6
  digitsValue (ds ++ List.replicate (6 - ds.length) '0')
    + (if 4 < digitsValue ((fraction.drop 6).take 1) then 1 else 0)

def ZoneText.zone (z : ZoneText) : Except MomentFault Zone :=
  let minutes : Int := 60 * z.hours + z.minutes
  Zone.make (if z.negative then -minutes else minutes) z.text

/-- The moment that is written, if there is one. A fraction that is nearly one gives the next
second. -/
def Timestamp.moment (t : Timestamp) : Except MomentFault Moment :=
  match t.clock with
  | none => return .day (← Day.make t.year t.month t.day)
  | some c => do
    let micro := millionths c.fraction
    let zone ← match c.zone with
      | none => pure none
      | some z => some <$> z.zone
    let day ← Day.make t.year t.month t.day
    let clock ← Clock.make c.hour c.minute c.second (micro % 1000000)
    if micro < 1000000 then return .time day clock zone else Moment.later day clock zone

end Stencil.Yaml
