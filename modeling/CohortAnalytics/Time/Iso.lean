import CohortAnalytics.Text.Characters
import CohortAnalytics.Text.Quoted
import CohortAnalytics.Time.Instant

/-!
Date and time text of ISO 8601: a calendar or week date, any one character, a time of day and an
offset, all but the date optional. Separators inside a date or a time are used throughout or not
at all.
-/

namespace CohortAnalytics

-- Powers are the ones of core, whatever else is in scope.
attribute [local instance (high)] instPowNat

inductive IsoError
  | malformed
  | offset (micros : Int)
  | year (n : Int)
  | month
  | day
  | hour
  | minute
  | second
  deriving DecidableEq

namespace Iso

/-- Exactly `count` ASCII digits. -/
def digits? : Nat → List Char → Option (Nat × List Char)
  | count, cs => go count 0 cs
where
  go : Nat → Nat → List Char → Option (Nat × List Char)
    | 0, n, rest => some (n, rest)
    | _ + 1, _, [] => none
    | count + 1, n, c :: rest =>
      match asciiDigit? c with
      | some d => go count (10 * n + d) rest
      | none => none

/-- A null character ends the text. -/
def atEnd : List Char → Bool
  | [] => true
  | c :: _ => c = '\x00'

/-- A time of day as written, in parts not yet checked; `clean` if nothing is left over. -/
structure ClockParts where
  hour : Nat := 0
  minute : Nat := 0
  second : Nat := 0
  micro : Nat := 0
  clean : Bool := true

namespace ClockParts

def ofParts (parts : List Nat) (micro : Nat) (clean : Bool) : ClockParts :=
  ⟨parts.getD 0 0, parts.getD 1 0, parts.getD 2 0, micro, clean⟩

def seconds (p : ClockParts) : Nat := p.hour * 3600 + p.minute * 60 + p.second

end ClockParts

/-- Six digits count, those after them are dropped. -/
def fraction? (parts : List Nat) (cs : List Char) : Option ClockParts := do
  let count := min 6 cs.length
  let (n, rest) ← digits? count cs
  return .ofParts parts (n * 10 ^ (6 - count)) (atEnd (rest.dropWhile (asciiDigit? · |>.isSome)))

/-- Hours, minutes and seconds in `turns` parts of two digits, then a fraction. Whether colons
stand between the parts is settled after the first. -/
def parts? : Nat → Option Bool → List Nat → List Char → Option ClockParts
  | 0, _, found, cs => fraction? found cs
  | turns + 1, colons, found, cs => do
    let (n, rest) ← digits? 2 cs
    let found := found ++ [n]
    match rest with
    | [] => some (.ofParts found 0 true)
    | [c] => if c.toNat < 128 then some (.ofParts found 0 (c == '\x00')) else none
    | c :: more =>
      let colons := colons.getD (c == ':')
      if colons && c == ':' then parts? turns (some colons) found more
      else if c == '.' || c == ',' then fraction? found more
      else if colons then none
      else parts? turns (some colons) found rest

def isSign (c : Char) : Bool := c == '+' || c == '-'

/-- A time of day and the offset after it. Right before the sign of an offset one ASCII character
too many does no harm. -/
def clock? (cs : List Char) : Option (ClockParts × Option Int) := do
  let time := cs.takeWhile fun c => !isSign c
  let p ← parts? 3 none [] time
  match cs.dropWhile fun c => !isSign c with
  | [] => if p.clean then some (p, none) else none
  | sign :: zone =>
    let z ← parts? 3 none [] zone
    let micros : Int := if z.seconds = 0 then 0 else z.seconds * microsPerSecond + z.micro
    if z.clean then some (p, some (if sign = '-' then -micros else micros)) else none

/-- Where the date ends. Of `YYYY-Www-##` the second hyphen separates date and time; a week date
without hyphens ends so that an even number of digits follows it. -/
def dateLength? (cs : List Char) : Option Nat :=
  let isDigitAt (i : Nat) : Bool := (cs[i]?.bind asciiDigit?).isSome
  let n := cs.length
  if n = 7 then some 7
  else if cs[4]? = some '-' then
    if cs[5]? = some 'W' then
      if n < 8 then none
      else if cs[8]? = some '-' then
        if n = 9 then none
        else if 10 < n ∧ isDigitAt 10 then some 8 else some 10
      else some 8
    else some 10
  else if cs[4]? = some 'W' then
    let digits := 7 + ((cs.drop 7).takeWhile (asciiDigit? · |>.isSome)).length
    some (if digits < 9 then digits else if digits % 2 = 0 then 7 else 8)
  else some 8

/-- Date parts before they are checked against the calendar. -/
structure DateParts where
  year : Int
  month : Nat
  day : Nat

/-- A week of year 0 is in no month. -/
def weekDate? (year : Nat) (hyphens : Bool) (cs : List Char) : Option DateParts := do
  let (week, rest) ← digits? 2 cs
  let day ← match rest with
    | [] => some 1
    | c :: more =>
      if hyphens && c != '-' then none
      else (digits? 1 (if hyphens then more else rest)).map Prod.fst
  let weeks := if year = 0 then 52 else Date.weeksInYear year
  if week = 0 ∨ weeks < week ∨ day = 0 ∨ 7 < day then none
  let number := Date.numberOfWeekDay year week day
  if year = 0 then some ⟨1, 0, day⟩
  else if number < 0 then some ⟨0, 1, 1⟩
  else
    let d := Date.ofNumber number.toNat
    some ⟨d.year, d.month, d.day⟩

def dateParts? (cs : List Char) : Option DateParts := do
  let (year, rest) ← digits? 4 cs
  let hyphens := rest.head? == some '-'
  let rest := if hyphens then rest.tail else rest
  if rest.head? == some 'W' then weekDate? year hyphens rest.tail
  else
    let (month, rest) ← digits? 2 rest
    if hyphens && rest.head? != some '-' then none
    let (day, rest) ← digits? 2 (if hyphens then rest.tail else rest)
    if rest.isEmpty then some ⟨year, month, day⟩ else none

/-- What follows the separator, which may be any character. -/
def timeText? : List Char → Option (List Char)
  | [] => none
  | _ :: rest => some rest

def checkDate (d : DateParts) : Except IsoError Date :=
  if d.year < 1 ∨ 9999 < d.year then .error (.year d.year)
  else if d.month < 1 ∨ 12 < d.month then .error .month
  else if d.day < 1 ∨ Date.daysInMonth d.year.toNat d.month < d.day then .error .day
  else .ok ⟨d.year.toNat, d.month, d.day⟩

def checkClock (p : ClockParts) : Except IsoError Nat :=
  if 24 ≤ p.hour then .error .hour
  else if 60 ≤ p.minute then .error .minute
  else if 60 ≤ p.second then .error .second
  else .ok (p.seconds * microsPerSecond + p.micro)

/-- An offset is less than a day. -/
def checkOffset : Option Int → Except IsoError Unit
  | some micros => if microsPerDay ≤ micros.natAbs then .error (.offset micros) else .ok ()
  | none => .ok ()

def assemble (d : DateParts) (p : ClockParts) (offset : Option Int) : Except IsoError Stamp := do
  checkOffset offset
  let date ← checkDate d
  let micros ← checkClock p
  match Instant.ofMicros? (date.number * microsPerDay + micros) with
  | some wall => .ok ⟨wall, offset⟩
  | none => .error (.year d.year)

def read (cs : List Char) : Except IsoError Stamp :=
  let parts : Option (DateParts × ClockParts × Option Int) := do
    if cs.length < 7 then none
    let n ← dateLength? cs
    let d ← dateParts? (cs.take n)
    match timeText? (cs.drop n) with
    | none => some (d, {}, none)
    | some time => return (d, ← clock? time)
  match parts with
  | some (d, p, offset) => assemble d p offset
  | none => .error .malformed

end Iso

/-- A length of time as messages show it: whole days, of which there may be fewer than none, then
seconds and microseconds. -/
def shownSpan (micros : Int) : String :=
  let days := micros / microsPerDay
  let rest := micros % microsPerDay
  let parts := [("days", days), ("seconds", rest / microsPerSecond),
    ("microseconds", rest % microsPerSecond)].filter fun p => p.2 ≠ 0
  let shown := parts.map fun (name, n) => name ++ "=" ++ toString n
  "datetime.timedelta(" ++ (if parts.isEmpty then "0" else ", ".intercalate shown) ++ ")"

def IsoError.message (text : String) : IsoError → String
  | .malformed => "Invalid isoformat string: " ++ quotedText text
  | .offset micros =>
    "offset must be a timedelta strictly between -timedelta(hours=24) and " ++
      "timedelta(hours=24), not " ++ shownSpan micros ++ "."
  | .year n => "year " ++ toString n ++ " is out of range"
  | .month => "month must be in 1..12"
  | .day => "day is out of range for month"
  | .hour => "hour must be in 0..23"
  | .minute => "minute must be in 0..59"
  | .second => "second must be in 0..59"

end CohortAnalytics
