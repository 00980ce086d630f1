import CohortAnalytics.Time.Timestamp

/-!
Time windows. A window may be open on either side: an open end is the present, an open start lies
a number of days before the end. A key names an open side as such and never by the instant it
stands for.
-/

namespace CohortAnalytics

inductive WindowError
  | timestamp (e : TimestampError)
  | reversed (start finish : Instant)
  | daysNotPositive
  deriving DecidableEq

structure Window where
  start : Option Instant
  finish : Option Instant
  days : Int
  days_pos : 0 < days
  ordered : ∀ s ∈ start, ∀ e ∈ finish, s.micros ≤ e.micros

namespace Window

def defaultDays : Int := 30

def openMarker : String := "default"

def make (start finish : Option Instant) (days : Int) : Except WindowError Window :=
  if ordered : ∀ s ∈ start, ∀ e ∈ finish, s.micros ≤ e.micros then
    if days_pos : 0 < days then .ok ⟨start, finish, days, days_pos, ordered⟩
    else .error .daysNotPositive
  else
    match start, finish with
    | some s, some e => .error (.reversed s e)
    | _, _ => .error .daysNotPositive

def ofRequest (start finish : Option TimeInput) (days : Int) : Except WindowError Window := do
  let start ← (readTime start).mapError .timestamp
  let finish ← (readTime finish).mapError .timestamp
  make start finish days

def isOpen (w : Window) : Bool := w.start.isNone && w.finish.isNone

/-- Start and end of the window at a moment; `none` where the start falls before the calendar. -/
def resolve? (w : Window) (now : Instant) : Option (Instant × Instant) := do
  let finish := w.finish.getD now
  match w.start with
  | some start => return (start, finish)
  | none => return (← finish.shift? (-(w.days * microsPerDay)), finish)

/-- The sides that follow the present keep the offset it was read with. -/
def resolveStamps? (w : Window) (now : Stamp) : Option (Stamp × Stamp) := do
  let (start, finish) ← w.resolve? now.wall
  let finishOffset := if w.finish.isSome then none else now.offset
  return (⟨start, if w.start.isSome then none else finishOffset⟩, ⟨finish, finishOffset⟩)

def sideText (side : Option Instant) : String := (side.map Instant.isoText).getD openMarker

/-- The parts of a cache key that tell one window from another. -/
def keyParts (w : Window) : List (String × String) :=
  [("start", sideText w.start), ("end", sideText w.finish),
    ("window_days", if w.start.isNone || w.finish.isNone then toString w.days else "")]

end Window

namespace TimestampError

def message : TimestampError → String
  | .unreadable text => "Invalid timestamp: " ++ quotedText text
  | .outsideCalendar => "date value out of range"

end TimestampError

namespace WindowError

def message : WindowError → String
  | .timestamp e => e.message
  | .reversed s e => "Time range start " ++ s.shown ++ " is after end " ++ e.shown
  | .daysNotPositive => "window_days must be positive"

end WindowError

end CohortAnalytics
