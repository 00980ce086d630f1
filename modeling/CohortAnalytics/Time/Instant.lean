import CohortAnalytics.Time.Calendar

/-!
Instants of the calendar in microseconds, without an offset, and wall-clock readings that may carry
one.
-/

namespace CohortAnalytics

def microsPerSecond : Nat := 1000000

def microsPerDay : Nat := 86400 * microsPerSecond

/-- Microseconds since the start of year 1, up to the end of year 9999. -/
structure Instant where
  micros : Nat
  inRange : micros < 3652059 * microsPerDay
  deriving DecidableEq

namespace Instant

instance : Inhabited Instant := ⟨⟨0, by decide⟩⟩

def ofMicros? (n : Int) : Option Instant :=
  if h : 0 ≤ n ∧ n.toNat < 3652059 * microsPerDay then some ⟨n.toNat, h.2⟩ else none

/-- `none` outside the years of the calendar. -/
def shift? (t : Instant) (micros : Int) : Option Instant := ofMicros? (t.micros + micros)

def date (t : Instant) : Date := Date.ofNumber (t.micros / microsPerDay)

def le (s t : Instant) : Bool := s.micros ≤ t.micros

def twoDigits (n : Nat) : List Char := [Nat.digitChar (n / 10 % 10), Nat.digitChar (n % 10)]

def sixDigits (n : Nat) : List Char :=
  twoDigits (n / 10000) ++ twoDigits (n / 100) ++ twoDigits n

def fractionText (micro : Nat) : List Char := if micro = 0 then [] else '.' :: sixDigits micro

def dateText (d : Date) : List Char :=
  twoDigits (d.year / 100) ++ twoDigits d.year ++ '-' :: twoDigits d.month ++
    '-' :: twoDigits d.day

def clockText (micros : Nat) : List Char :=
  let seconds := micros / microsPerSecond
  twoDigits (seconds / 3600) ++ ':' :: twoDigits (seconds / 60 % 60) ++
    ':' :: twoDigits (seconds % 60) ++ fractionText (micros % microsPerSecond)

def write (separator : Char) (t : Instant) : List Char :=
  dateText t.date ++ separator :: clockText (t.micros % microsPerDay)

def isoText (t : Instant) : String := String.ofList (t.write 'T')

def shown (t : Instant) : String := String.ofList (t.write ' ')

end Instant

/-- What a wall clock shows, and by how many microseconds it is ahead of universal time. -/
structure Stamp where
  wall : Instant
  offset : Option Int
  deriving DecidableEq

namespace Stamp

instance : Inhabited Stamp := ⟨⟨default, none⟩⟩

/-- A reading without an offset is universal time already. -/
def universal? (s : Stamp) : Option Instant := s.wall.shift? (-(s.offset.getD 0))

/-- Hours and minutes, and seconds where there are any. -/
def offsetText (offset : Int) : List Char :=
  let n := offset.natAbs
  let seconds := n / microsPerSecond
  let hourMinute :=
    Instant.twoDigits (seconds / 3600) ++ ':' :: Instant.twoDigits (seconds / 60 % 60)
  let rest := if n % (60 * microsPerSecond) = 0 then []
    else ':' :: Instant.twoDigits (seconds % 60) ++ Instant.fractionText (n % microsPerSecond)
  (if offset < 0 then '-' else '+') :: hourMinute ++ rest

def isoText (s : Stamp) : String :=
  String.ofList (s.wall.write 'T' ++ (s.offset.map offsetText).getD [])

/-- As `isoText`, but an offset of zero is written `Z`. -/
def zuluText (s : Stamp) : String :=
  String.ofList (s.wall.write 'T' ++
    match s.offset with
    | none => []
    | some 0 => ['Z']
    | some offset => offsetText offset)

end Stamp

end CohortAnalytics
