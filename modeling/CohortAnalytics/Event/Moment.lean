import CohortAnalytics.Number.Basic
import CohortAnalytics.Number.Reading
import CohortAnalytics.Time.Iso

/-!
Moments as collected events write them: a date, a date and a time of day with an offset or without
one, or a count of seconds since the start of 1970. A count beyond `2 * 10 ^ 10` is one of
milliseconds.
-/

namespace CohortAnalytics

-- Powers are the ones of core, whatever else is in scope.
attribute [local instance (high)] instPowNat

namespace Moment

def date? (cs : List Char) : Option (Nat × List Char) := do
  let (year, rest) ← Iso.digits? 4 cs
  let (month, rest) ← Iso.digits? 2 (← hyphen? rest)
  let (day, rest) ← Iso.digits? 2 (← hyphen? rest)
  match Iso.checkDate ⟨year, month, day⟩ with
  | .ok d => some (d.number, rest)
  | .error _ => none
where
  hyphen? : List Char → Option (List Char)
    | '-' :: rest => some rest
    | _ => none

/-- At least one digit; those after the sixth are dropped. -/
def fraction? (cs : List Char) : Option (Nat × List Char) :=
  let ds := (cs.takeWhile fun c => (asciiDigit? c).isSome).filterMap asciiDigit?
  let kept := ds.take 6
  if ds.isEmpty then none
  else some (Reading.value kept * 10 ^ (6 - kept.length), cs.drop ds.length)

def seconds? : List Char → Option (Nat × List Char)
  | ':' :: rest => do
    let (s, rest) ← Iso.digits? 2 rest
    if 59 < s then none
    match rest with
    | c :: more =>
      if c = '.' ∨ c = ',' then
        let (micro, rest) ← fraction? more
        return (s * microsPerSecond + micro, rest)
      else return (s * microsPerSecond, rest)
    | [] => return (s * microsPerSecond, [])
  | rest => some (0, rest)

def clock? (cs : List Char) : Option (Nat × List Char) := do
  let (h, rest) ← Iso.digits? 2 cs
  match rest with
  | ':' :: rest =>
    let (m, rest) ← Iso.digits? 2 rest
    if 23 < h ∨ 59 < m then none
    let (s, rest) ← seconds? rest
    return ((h * 3600 + m * 60) * microsPerSecond + s, rest)
  | _ => none

def offsetSign? (c : Char) : Option Int :=
  if c = '+' then some 1 else if c = '-' ∨ c = '−' then some (-1) else none

def offset? : List Char → Option (Option Int)
  | [] => some none
  | [c] => if c = 'Z' ∨ c = 'z' then some (some 0) else none
  | c :: cs => do
    let sign ← offsetSign? c
    let (h, rest) ← Iso.digits? 2 cs
    let (m, rest) ← Iso.digits? 2 (match rest with
      | ':' :: more => more
      | more => more)
    let minutes := h * 60 + m
    if 59 < m ∨ 24 * 60 ≤ minutes ∨ !rest.isEmpty then none
    return some (sign * (minutes * 60 * microsPerSecond : Nat))

def isSeparator (c : Char) : Bool := c = 'T' || c = 't' || c = ' ' || c = '_'

def written? (cs : List Char) : Option Stamp := do
  let (day, rest) ← date? cs
  match rest with
  | [] => return ⟨← Instant.ofMicros? (day * microsPerDay), none⟩
  | c :: rest =>
    if !isSeparator c then none
    let (time, rest) ← clock? rest
    return ⟨← Instant.ofMicros? (day * microsPerDay + time), ← offset? rest⟩

def epoch : Int := 719162 * 86400

def firstCount : Int := -11676096000

def lastCount : Int := 253402300799

/-- The greatest count that is one of seconds. -/
def watershed : Nat := 20000000000

/-- The moment of a count and some microseconds, in universal time. -/
def ofCount? (count : Int) (micro : Nat) : Option Stamp := do
  let (seconds, extra) := if watershed < count.natAbs
    then (count / 1000, (count % 1000).toNat * 1000) else (count, 0)
  let total := micro + extra
  let seconds := seconds + total / microsPerSecond
  if seconds < firstCount ∨ lastCount < seconds then none
  let wall ← Instant.ofMicros?
    ((seconds + epoch) * microsPerSecond + (total % microsPerSecond : Nat))
  return ⟨wall, some 0⟩

/-- A float in seconds: whole seconds, and the microseconds of its fraction. -/
def ofFloat? (x : Float) : Option Stamp := do
  let b ← Binary.ofFloat? x
  let whole := b.signed / b.denominator
  let fraction := (Int.tmod b.signed b.denominator).natAbs
  ofCount? whole (Binary.nearest (fraction * microsPerSecond) b.denominator)

def ofNumber? : Number → Option Stamp
  | .int n => ofCount? n 0
  | .float x => ofFloat? x

/-- Digits after a sign, as a count; they may have a decimal point. -/
def count? (cs : List Char) : Option Stamp := do
  let (negative, rest) := Reading.sign cs
  let whole := rest.takeWhile fun c => (asciiDigit? c).isSome
  let n := Reading.value (whole.filterMap asciiDigit?)
  if whole.isEmpty ∨ 2 ^ (63 : Nat) ≤ n then none
  match rest.drop whole.length with
  | [] => ofCount? (if negative then -(n : Int) else n) 0
  | '.' :: fraction =>
    if !(fraction.all fun c => (asciiDigit? c).isSome) then none
    let micros := Reading.value ((fraction.filterMap asciiDigit?).take 6) *
      10 ^ (6 - min 6 fraction.length)
    let total : Int := n * microsPerSecond + micros
    let total := if negative then -total else total
    let total := if watershed * microsPerSecond < total.natAbs then total / 1000 else total
    ofCount? (total / microsPerSecond) (total % microsPerSecond).toNat
  | _ => none

def read? (text : String) : Option Stamp :=
  match written? text.toList with
  | some s => some s
  | none => count? text.toList

end Moment

end CohortAnalytics
