import CohortAnalytics.Cache.Step
import CohortAnalytics.Query.Inquiry

/-!
A request from its look-up to its answer while nothing else happens: the steps of its caller and of
one worker in a row.
-/

namespace CohortAnalytics

namespace Cache

variable {τ V σ : Type} [Clock τ]

def landing (i : Nat) (r : Except Failure V) : List (CacheStep τ V) :=
  [.finish i r, .stamp i, .settle i, .publish i]

def leaving (caller : Nat) : List (CacheStep τ V) := [.giveUp caller, .detach caller,
  .cancelToken caller]

/-- A caller that is refused, or whose flight is done, takes what there is to take. -/
def arriving (caller i : Nat) : List (CacheStep τ V) :=
  [.settle i, .publish i, .collect caller, .detach caller, .cancelToken caller]

structure Served (τ V σ : Type) where
  answer : Option (Except Failure V)
  computed : Bool
  cache : Cache τ V
  state : σ

def isRunning (i : Nat) (c : Cache τ V) : Bool :=
  (c.flights[i]?.map fun f => f.stage.isRunning).getD false

/-- A computation that stalls outlasts its caller; it is cancelled once the caller is gone. -/
def cancelledFailure : Failure := .store (.cancelled "Query cancelled")

def endFlight (caller i : Nat) (outcome : Outcome V) (c : Cache τ V) : Cache τ V :=
  match outcome with
  | .finished r => c.attempt (landing i r ++ arriving caller i)
  | .stalled => c.attempt (leaving caller ++ landing i (.error cancelledFailure))

def refusedFlight? (caller : Nat) (c : Cache τ V) : Option Nat :=
  match c.callers[caller]? with
  | some (.refused i) => some i
  | _ => none

/-- The computation runs only for a caller whose own flight a worker takes up. -/
def call (key : String) (ttl : Option τ) (compute : σ → Outcome V × σ) (c : Cache τ V) (s : σ) :
    Served τ V σ :=
  let caller := c.callers.length
  let known := c.flights.length
  let c := c.attempt [.request key ttl, .submit caller, .start known]
  if c.isRunning known then
    let (outcome, s) := compute s
    let c := c.endFlight caller known outcome
    ⟨c.answer? caller, true, c, s⟩
  else
    let c := match c.refusedFlight? caller with
      | some i => c.attempt (arriving caller i)
      | none => c
    ⟨c.answer? caller, false, c, s⟩

end Cache

end CohortAnalytics
