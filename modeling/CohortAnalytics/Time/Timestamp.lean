import CohortAnalytics.Text.Characters
import CohortAnalytics.Time.Iso

/-!
Timestamps given as text, read as instants of universal time.
-/

namespace CohortAnalytics

inductive TimestampError
  | unreadable (text : String)
  | outsideCalendar
  deriving DecidableEq

/-- `Z` is short for an offset of zero, wherever it stands. -/
def spellOffset (cs : List Char) : List Char :=
  cs.flatMap fun c => if c = 'Z' then ['+', '0', '0', ':', '0', '0'] else [c]

/-- The instant a text names; empty text and no text name none. -/
def readTimestamp : Option String → Except TimestampError (Option Instant)
  | none => .ok none
  | some text =>
    if text = "" then .ok none
    else
      match Iso.read (spellOffset (trimBlank text.toList)) with
      | .error _ => .error (.unreadable text)
      | .ok stamp =>
        match stamp.universal? with
        | some t => .ok (some t)
        | none => .error .outsideCalendar

/-- A moment of a request: a text to be read, or a reading of a clock. -/
inductive TimeInput
  | text (s : String)
  | stamp (s : Stamp)
  deriving DecidableEq

def readTime : Option TimeInput → Except TimestampError (Option Instant)
  | none => .ok none
  | some (.text s) => readTimestamp (some s)
  | some (.stamp s) =>
    match s.universal? with
    | some t => .ok (some t)
    | none => .error .outsideCalendar

end CohortAnalytics
