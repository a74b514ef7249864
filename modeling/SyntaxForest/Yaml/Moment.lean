import SyntaxForest.Fault
import SyntaxForest.Yaml.BareWord

/-!
Dates, with or without a time of day.
-/

namespace SyntaxForest.Yaml

open SyntaxForest

/-- The time of day, with millionths of a second and the minutes by which the zone is ahead, if it
is known. -/
structure DayTime where
  hour : Nat
  minute : Nat
  second : Nat
  micro : Nat := 0
  zone : Option Int := none
deriving DecidableEq, Repr

structure Moment where
  year : Nat
  month : Nat
  day : Nat
  time : Option DayTime := none
deriving DecidableEq, Repr

namespace Moment

/-! ### Reading -/

def number (digits : List Char) : Nat := digits.foldl (fun n c => n * 10 + (c.toNat - 48)) 0

/-- Between `least` and `most` digits, as many as there are, and what follows them. -/
def digits? (least most : Nat) (cs : List Char) : Option (Nat × List Char) :=
  let digits := (cs.take most).takeWhile Char.isDigit
  if digits.length < least then none else some (number digits, cs.drop digits.length)

def sign? (c : Char) (cs : List Char) : Option (List Char) :=
  if cs.head? = some c then some cs.tail else none

/-- Year, month and day with hyphens between them. -/
def date? (least : Nat) (cs : List Char) : Option (Moment × List Char) := do
  let (year, cs) ← digits? 4 4 cs
  let (month, cs) ← digits? least 2 (← sign? '-' cs)
  let (day, cs) ← digits? least 2 (← sign? '-' cs)
  return ({ year, month, day }, cs)

/-- What stands between a date and a time: a letter or spaces. -/
def afterDate? (cs : List Char) : Option (List Char) :=
  match cs with
  | c :: rest =>
    if c = 'T' || c = 't' then some rest
    else if c = ' ' || c = '\t' then some (cs.dropWhile fun d => d = ' ' || d = '\t')
    else none
  | [] => none

/-- A fraction of a second in millionths, the first six digits of it. -/
def fraction (cs : List Char) : Nat × List Char :=
  match cs with
  | '.' :: rest =>
    let digits := rest.takeWhile Char.isDigit
    (number ((digits ++ List.replicate 6 '0').take 6), rest.drop digits.length)
  | _ => (0, cs)

/-- The zone at the end of a text. -/
def zone? (cs : List Char) : Option (Option Int) :=
  match cs.dropWhile fun d => d = ' ' || d = '\t' with
  | [] => if cs.isEmpty then some none else none
  | ['Z'] => some (some 0)
  | sign :: rest => do
    if sign ≠ '-' && sign ≠ '+' then none
    let (hours, rest) ← digits? 1 2 rest
    let (minutes, rest) ← match rest with
      | ':' :: rest => digits? 2 2 rest
      | _ => some (0, rest)
    if !rest.isEmpty then none
    let ahead := Int.ofNat (60 * hours + minutes)
    return some (if sign = '-' then -ahead else ahead)

def time? (cs : List Char) : Option DayTime := do
  let (hour, cs) ← digits? 1 2 cs
  let (minute, cs) ← digits? 2 2 (← sign? ':' cs)
  let (second, cs) ← digits? 2 2 (← sign? ':' cs)
  let (micro, cs) := fraction cs
  let zone ← zone? cs
  return { hour, minute, second, micro, zone }

/-- The moment that a text spells; a date alone has months and days of `least` digits at least. -/
def readLine? (least : Nat) (cs : List Char) : Option Moment := do
  let (date, rest) ← date? 1 cs
  if rest.isEmpty then
    let (date, _) ← date? least cs
    return date
  let time ← time? (← afterDate? rest)
  return { date with time := some time }

/-- The moment that a text spells, which may end with a line feed. -/
def read? (least : Nat) (cs : List Char) : Option Moment := readLine? least (withoutLineEnd cs)

/-! ### Checking -/

def isLeap (year : Nat) : Bool := year % 4 = 0 && (year % 100 ≠ 0 || year % 400 = 0)

def monthDays (year month : Nat) : Nat :=
  if month = 2 then (if isLeap year then 29 else 28)
  else if [4, 6, 9, 11].contains month then 30
  else 31

def checkZone (zone : Int) : Except Fault Unit :=
  if zone.natAbs < 1440 then .ok ()
  else
    let days := Int.fdiv zone 1440
    let seconds := (Int.fmod zone 1440) * 60
    let shown := if seconds = 0 then s!"days={days}" else s!"days={days}, seconds={seconds}"
    .error (.badValue
      ("offset must be a timedelta strictly between -timedelta(hours=24) and timedelta(hours=24), "
        ++ "not datetime.timedelta(" ++ shown ++ ")."))

/-- Refuses what is no moment of the calendar. -/
def check (m : Moment) : Except Fault Moment := do
  if let some zone := m.time.bind (·.zone) then checkZone zone
  if m.year = 0 then throw (.badValue "year 0 is out of range")
  if m.month = 0 || 12 < m.month then throw (.badValue "month must be in 1..12")
  if m.day = 0 || monthDays m.year m.month < m.day then
    throw (.badValue "day is out of range for month")
  if let some t := m.time then
    if 23 < t.hour then throw (.badValue "hour must be in 0..23")
    if 59 < t.minute then throw (.badValue "minute must be in 0..59")
    if 59 < t.second then throw (.badValue "second must be in 0..59")
  return m

/-! ### Comparing -/

/-- The days from the first day of the first year to a date. -/
def dayNumber (m : Moment) : Nat :=
  let years := m.year - 1
  let months := (List.range' 1 (m.month - 1)).foldl
    (fun days month => days + monthDays m.year month) 0
  365 * years + years / 4 - years / 100 + years / 400 + months + (m.day - 1)

/-- The millionths of a second from the beginning of the first year to a moment, on the clock of its
zone. -/
def clock (m : Moment) (t : DayTime) : Int :=
  Int.ofNat ((((m.dayNumber * 24 + t.hour) * 60 + t.minute) * 60 + t.second) * 1000000 + t.micro)

/-- Moments that are the same. Those with known zones are if they are the same on one clock. -/
def same (m n : Moment) : Bool :=
  match m.time, n.time with
  | some t, some u =>
    match t.zone, u.zone with
    | some z, some w => m.clock t - 60000000 * z = n.clock u - 60000000 * w
    | _, _ => m = n
  | _, _ => m = n

/-! ### Writing -/

def padded (width n : Nat) : String :=
  let digits := Nat.toDigits 10 n
  String.ofList (List.replicate (width - digits.length) '0' ++ digits)

def zoneText (zone : Int) : String :=
  let n := zone.natAbs
  (if zone < 0 then "-" else "+") ++ padded 2 (n / 60) ++ ":" ++ padded 2 (n % 60)

/-- The moment as text. -/
def shown (m : Moment) : String :=
  let date := padded 4 m.year ++ "-" ++ padded 2 m.month ++ "-" ++ padded 2 m.day
  match m.time with
  | none => date
  | some t =>
    date ++ " " ++ padded 2 t.hour ++ ":" ++ padded 2 t.minute ++ ":" ++ padded 2 t.second
      ++ (if t.micro = 0 then "" else "." ++ padded 6 t.micro)
      ++ (t.zone.map zoneText).getD ""

end Moment

end SyntaxForest.Yaml
