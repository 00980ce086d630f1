import CohortAnalytics.Text.Quoted

/-!
Failures of a computation, by cause.
-/

namespace CohortAnalytics

/-- How the event store fails a query: it rejects it, runs out of time, or nobody waits any more.
The store's own words may be unknown. -/
inductive StoreFailure
  | rejected (message : Option String)
  | timedOut (message : String)
  | cancelled (message : String)
  deriving DecidableEq

inductive Failure
  | store (cause : StoreFailure)
  | invalid (message : String)
  | missingKey (key : String)
  | wrongKind
  | missingMember
  | beyondRange
  | noItem
  | constraint
  /-- a wait ran out somewhere inside the computation -/
  | outOfTime
  /-- the caller stopped waiting -/
  | gaveUp (message : String)
  /-- nobody waited any more when the computation's turn came -/
  | neverStarted (message : String)
  | unexpected (message : String)
  deriving DecidableEq

namespace Failure

def unreadableNumber (text : String) : Failure :=
  .invalid ("could not convert string to float: " ++ quotedText text)

def unreadableInteger (text : String) : Failure :=
  .invalid ("invalid literal for int() with base 10: " ++ quotedText text)

def notANumber : Failure := .invalid "cannot convert float NaN to integer"

end Failure

end CohortAnalytics
