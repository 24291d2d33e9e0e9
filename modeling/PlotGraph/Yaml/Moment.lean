import PlotGraph.Text.Quoted
import PlotGraph.Yaml.Fault

/-!
# Dates and points in time

A date is written in figures, `2020-01-31`; a time may follow it after the letter T or after
white space, and an offset from universal time after that. A fraction of a second counts to
its sixth digit, which the seventh rounds.

`parts?` reads the figures, and `Parts.value` says which of them denote a day of the
calendar and a time of the day.
-/

namespace PlotGraph.Yaml

/-! ### Dates -/

structure Date where
  year : Nat
  month : Nat
  day : Nat
  deriving DecidableEq, Repr

/-- Whether a year has a day more than others. -/
def isLeap (year : Nat) : Bool := year % 4 == 0 && (year % 100 != 0 || year % 400 == 0)

def daysOf (year month : Nat) : Nat :=
  if month = 2 then (if isLeap year then 29 else 28)
  else if [4, 6, 9, 11].contains month then 30 else 31

namespace Date

/-- The date with a year, a month and a day, if it exists. -/
def make (year month day : Nat) : Except TimeFault Date :=
  if year = 0 then .error (.year year)
  else if month < 1 || 12 < month then .error .month
  else if day < 1 || daysOf year month < day then .error .day
  else .ok ⟨year, month, day⟩

def next (d : Date) : Date :=
  if d.day < daysOf d.year d.month then { d with day := d.day + 1 }
  else if d.month < 12 then { d with month := d.month + 1, day := 1 }
  else ⟨d.year + 1, 1, 1⟩

def ordinal (d : Date) : Nat :=
  let before := d.year - 1
  365 * before + before / 4 - before / 100 + before / 400
    + ((List.range' 1 (d.month - 1)).map (daysOf d.year)).foldl (· + ·) 0 + d.day

def shown (d : Date) : String :=
  "datetime.date(" ++ ", ".intercalate ([d.year, d.month, d.day].map Decimal.ofNat) ++ ")"

end Date

/-! ### Points in time -/

/-- An offset from universal time: its text, and the minutes by which it is ahead. -/
structure Zone where
  name : String
  minutes : Int
  deriving DecidableEq, Repr

/-- A point in time; the seconds are those of the day. -/
structure Moment where
  date : Date
  seconds : Nat
  micros : Nat
  zone : Option Zone := none
  /-- Whether it is written with a T or an offset. -/
  isStamp : Bool := false
  deriving DecidableEq, Repr

namespace Moment

def secondsPerDay : Nat := 86400

def tick (m : Moment) : Moment :=
  if m.seconds + 1 < secondsPerDay then { m with seconds := m.seconds + 1 }
  else { m with date := m.date.next, seconds := 0 }

/-- The number of seconds up to a point in time, in universal time if it has an offset. -/
def instant (m : Moment) : Int :=
  (m.date.ordinal * secondsPerDay + m.seconds : Nat) - 60 * (m.zone.map (·.minutes)).getD 0

/-- Whether two points in time are the same; one with an offset is never one without. -/
def isSame (m n : Moment) : Bool :=
  m.zone.isSome == n.zone.isSome && m.instant == n.instant && m.micros == n.micros

def zoneText (z : Zone) : String :=
  "tzinfo=datetime.timezone(" ++ spanText z.minutes ++ ", " ++ Text.quoted z.name ++ ")"

/-- A point in time as it is shown in messages: seconds and their fraction are left out
where they are zero. -/
def shown (m : Moment) : String :=
  let second := m.seconds % 60
  let exact := if 0 < m.micros then [second, m.micros] else if 0 < second then [second] else []
  let figures := [m.date.year, m.date.month, m.date.day, m.seconds / 3600, m.seconds / 60 % 60]
  (if m.isStamp then "TimeStamp(" else "datetime.datetime(")
    ++ ", ".intercalate ((figures ++ exact).map Decimal.ofNat ++ m.zone.toList.map zoneText)
    ++ ")"

end Moment

/-! ### Reading -/

namespace Moment

def figure (cs : List Char) : Nat := Decimal.valueOf (cs.map fun c => c.toNat - 48)

/-- Read at least `least` and at most `most` digits. -/
def digits? (least most : Nat) (cs : List Char) : Option (List Char × List Char) :=
  let ds := (cs.take most).takeWhile Char.isDigit
  if least ≤ ds.length then some (ds, cs.drop ds.length) else none

def mark? (mark : Char) : List Char → Option (List Char)
  | c :: rest => if c = mark then some rest else none
  | [] => none

def isSpace (c : Char) : Bool := c == ' ' || c == '\t'

/-- The figures of a time, with the digits of the fraction of a second. -/
structure Clock where
  isMarked : Bool
  hour : Nat
  minute : Nat
  second : Nat
  fraction : List Char
  zone : Option Zone

/-- The figures of a date, and of a time if one follows. -/
structure Parts where
  year : Nat
  month : List Char
  day : List Char
  clock : Option Clock

/-- The offset that makes up a text; universal time is the offset Z. -/
def zone? (cs : List Char) : Option Zone :=
  match cs with
  | ['Z'] => some ⟨"Z", 0⟩
  | sign :: rest => do
    if sign ≠ '+' && sign ≠ '-' then failure
    let (hours, rest) ← digits? 1 2 rest
    let minutes ← match rest with
      | [] => some []
      | ':' :: rest => do
        let (minutes, rest) ← digits? 2 2 rest
        if rest.isEmpty then some minutes else none
      | _ => none
    let span : Int := (60 * figure hours + figure minutes : Nat)
    return ⟨String.ofList cs, if sign = '-' then -span else span⟩
  | [] => none

/-- The figures of the time that makes up a text after the mark or white space. -/
def clock? (isMarked : Bool) (cs : List Char) : Option Clock := do
  let (hour, cs) ← digits? 1 2 cs
  let (minute, cs) ← digits? 2 2 (← mark? ':' cs)
  let (second, cs) ← digits? 2 2 (← mark? ':' cs)
  let (fraction, cs) := match cs with
    | '.' :: rest => rest.span Char.isDigit
    | cs => ([], cs)
  let zone ← if cs.isEmpty then some none else (zone? (cs.dropWhile isSpace)).map some
  return ⟨isMarked, figure hour, figure minute, figure second, fraction, zone⟩

/-- The figures of the date that makes up a text, and of its time. -/
def parts? (cs : List Char) : Option Parts := do
  let (year, cs) ← digits? 4 4 cs
  let (month, cs) ← digits? 1 2 (← mark? '-' cs)
  let (day, cs) ← digits? 1 2 (← mark? '-' cs)
  let clock ← match cs with
    | [] => some none
    | c :: rest =>
      if c = 'T' || c = 't' then (clock? true rest).map some
      else if isSpace c then (clock? false (rest.dropWhile isSpace)).map some
      else none
  return ⟨figure year, month, day, clock⟩

/-- Whether the figures need no tag: without a time, month and day have two each. -/
def Parts.isPlain (p : Parts) : Bool :=
  p.clock.isSome || (p.month.length == 2 && p.day.length == 2)

/-- The millionths that the digits of a fraction denote, rounded by the seventh digit. -/
def millionths (fraction : List Char) : Nat :=
  let ds := fraction.take 6
  figure (ds ++ List.replicate (6 - ds.length) '0')
    + (if (fraction[6]?).any fun c => 4 < figure [c] then 1 else 0)

/-- The point in time with a date and the figures of a time, if it exists. -/
def make (date : Date) (c : Clock) : Except TimeFault Moment :=
  if 23 < c.hour then .error .hour
  else if 59 < c.minute then .error .minute
  else if 59 < c.second then .error .second
  else
    let m : Moment := {
      date
      seconds := 3600 * c.hour + 60 * c.minute + c.second
      micros := millionths c.fraction
      zone := c.zone
      isStamp := c.isMarked || c.zone.any (·.name != "Z") }
    .ok (if m.micros < 1000000 then m else { m with micros := 0 }.tick)

def Parts.value (p : Parts) : Except TimeFault (Date ⊕ Moment) := do
  for z in (p.clock.bind (·.zone)).toList do
    if 1440 ≤ z.minutes.natAbs then throw (.offset z.minutes)
  let date ← Date.make p.year (figure p.month) (figure p.day)
  match p.clock with
  | none => return .inl date
  | some c => return .inr (← make date c)

end Moment
end PlotGraph.Yaml
