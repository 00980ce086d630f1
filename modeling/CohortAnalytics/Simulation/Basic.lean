import CohortAnalytics.Random.Twister
import CohortAnalytics.Simulation.Session

/-!
Simulated traffic: sessions spread over the days before an end, their events in order of time.
-/

namespace CohortAnalytics

namespace Simulation

variable {σ : Type}

/-- A number in at least six digits. -/
def sessionName (i : Nat) : String :=
  let digits := Nat.toDigits 10 i
  "sess_" ++ String.ofList (List.replicate (6 - digits.length) '0' ++ digits)

def sessionsFrom (source : RandomSource σ) (buckets : Bucketing) (c : SimulationConfig)
    (experiments : List Experiment) (start : Stamp) :
    List String → Draw σ (List SimulatedSession)
  | [] => return []
  | name :: rest => do
    let s ← session source buckets c experiments start name
    return s :: (← sessionsFrom source buckets c experiments start rest)

/-- Experiments of other sites have no part in it. -/
def ownExperiments (c : SimulationConfig) (experiments : List Experiment) : List Experiment :=
  experiments.filter fun e => e.site == c.site

def startOf (c : SimulationConfig) (finish : Stamp) : Except Failure Stamp :=
  match finish.wall.shift? (-(c.days * secondsPerDay * microsPerSecond)) with
  | some wall => .ok { finish with wall }
  | none => .error .beyondRange

def sessions (source : RandomSource σ) (buckets : Bucketing) (c : SimulationConfig)
    (experiments : List Experiment) (finish : Stamp) : Draw σ (List SimulatedSession) := do
  let start ← StateT.lift (startOf c finish)
  sessionsFrom source buckets c (ownExperiments c experiments) start
    ((List.range c.sessions.toNat).map sessionName)

/-- By time, and events of one moment by id. -/
def eventLe (a b : Event) : Bool :=
  a.timestamp.wall.micros < b.timestamp.wall.micros ||
    (a.timestamp.wall.micros == b.timestamp.wall.micros && a.id ≤ b.id)

def inOrder (ss : List SimulatedSession) : List Event :=
  (ss.flatMap SimulatedSession.events).mergeSort eventLe

def eventsFrom (source : RandomSource σ) (buckets : Bucketing) (c : SimulationConfig)
    (experiments : List Experiment) (finish : Stamp) (s : σ) : Except Failure (List Event) := do
  let (ss, _) ← sessions source buckets c experiments finish s
  return inOrder ss

def events (c : SimulationConfig) (experiments : List Experiment) (finish : Stamp) :
    Except Failure (List Event) :=
  eventsFrom twister bucket c experiments finish (Twister.ofSeed c.seed)

end Simulation

end CohortAnalytics
