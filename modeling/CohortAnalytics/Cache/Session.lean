import CohortAnalytics.Cache.Call

/-!
A cache with its workers and several callers, directed from outside. A flight that a caller begins
stops at a gate until it is released with a result; everything else happens as soon as it can.
-/

namespace CohortAnalytics

inductive CacheCommand (τ V : Type)
  | call (key : String) (ttl : Option τ) (r : Except Failure V)
  | start (caller key : String) (ttl : Option τ) (cancellable : Bool)
  | impatient (key : String) (cancellable : Bool)
  | release (number : Nat) (r : Except Failure V)
  | advance (seconds : τ)
  | get (key : String)
  | invalidate (key : String)
  | invalidateSite (site : String)
  | cleanup
  | clear
  | size
  | close

inductive CacheAnswer (τ V : Type)
  | nothing
  | moment (now : τ)
  | called (r : Option (Except Failure V)) (computed : Bool)
  | result (r : Option (Except Failure V))
  | value (v : Option V)
  | flag (b : Bool)
  | count (n : Nat)

structure GatedFlight (V : Type) where
  flight : Nat
  cancellable : Bool
  gate : Option (Except Failure V) := none
  started : Bool := false

/-- Callers by name and gated flights are in the order in which they came. -/
structure CacheSession (τ V : Type) where
  cache : Cache τ V
  workers : Nat
  gates : List (GatedFlight V) := []
  callers : List (String × Nat) := []

namespace CacheSession

variable {τ V : Type} [Clock τ]

def runningCount (s : CacheSession τ V) : Nat :=
  (s.cache.flights.filter fun f => f.stage.isRunning).length

/-- The flight that has been queued longest, if a worker is free. -/
def nextFlight? (s : CacheSession τ V) : Option Nat :=
  if s.runningCount < s.workers then s.cache.flights.findIdx? fun f => f.stage.isQueued else none

def noteStart (i : Nat) (s : CacheSession τ V) : CacheSession τ V :=
  { s with gates := s.gates.map fun g =>
      if g.flight = i then { g with started := s.cache.isRunning i } else g }

def isCancelled (i : Nat) (s : CacheSession τ V) : Bool :=
  (s.cache.flights[i]?.map Flight.cancelled).getD false

/-- How a running flight ends now: by its token if it heeds it, or as its gate says. -/
def ending? (s : CacheSession τ V) (g : GatedFlight V) : Option (Except Failure V) :=
  if s.cache.isRunning g.flight then
    if g.cancellable && s.isCancelled g.flight then some (.error Cache.cancelledFailure)
    else g.gate
  else none

def land (s : CacheSession τ V) : CacheSession τ V :=
  { s with cache := s.gates.foldl (fun c g =>
      match s.ending? g with
      | some r => c.attempt (Cache.landing g.flight r)
      | none => c) s.cache }

def arrive (s : CacheSession τ V) : CacheSession τ V :=
  let flights := (List.range s.cache.flights.length).flatMap fun i =>
    [CacheStep.settle i, CacheStep.publish i]
  let callers := (List.range s.cache.callers.length).flatMap fun i =>
    [CacheStep.collect i, CacheStep.detach i, CacheStep.cancelToken i]
  { s with cache := s.cache.attempt (flights ++ callers) }

def round (s : CacheSession τ V) : CacheSession τ V :=
  let s := match s.nextFlight? with
    | some i => ({ s with cache := s.cache.attempt [.start i] } : CacheSession τ V).noteStart i
    | none => s
  s.land.arrive

def rounds : Nat → CacheSession τ V → CacheSession τ V
  | 0, s => s
  | n + 1, s => rounds n s.round

/-- Every round that changes anything brings a flight further. -/
def settle (s : CacheSession τ V) : CacheSession τ V := rounds (2 * s.cache.flights.length + 2) s

/-- A caller asks; a flight of its own gets a gate, unless the cache is closed. -/
def enter (key : String) (ttl : Option τ) (cancellable : Bool) (s : CacheSession τ V) :
    CacheSession τ V :=
  let caller := s.cache.callers.length
  let flight := s.cache.flights.length
  let cache := s.cache.attempt [.request key ttl, .submit caller]
  let gates := if cache.flights.length = flight ∨ cache.closed then s.gates
    else s.gates ++ [{ flight := flight, cancellable := cancellable }]
  ({ s with cache, gates } : CacheSession τ V).settle

def setGate (number : Nat) (r : Except Failure V) (s : CacheSession τ V) : CacheSession τ V :=
  { s with gates := s.gates.modify (number - 1) fun g => { g with gate := some r } }

def command (s : CacheSession τ V) : CacheCommand τ V → CacheSession τ V × CacheAnswer τ V
  | .call key ttl r =>
    let served := s.cache.call key ttl (fun _ => (.finished r, ())) ()
    ({ s with cache := served.cache }, .called served.answer served.computed)
  | .start name key ttl cancellable =>
    let caller := s.cache.callers.length
    let s := s.enter key ttl cancellable
    ({ s with callers := s.callers ++ [(name, caller)] }, .nothing)
  | .impatient key cancellable =>
    let caller := s.cache.callers.length
    let s := s.enter key none cancellable
    let cache := s.cache.attempt (Cache.leaving caller)
    (({ s with cache } : CacheSession τ V).settle, .result (cache.answer? caller))
  | .release number r => ((s.setGate number r).settle, .nothing)
  | .advance seconds =>
    let now := Clock.later s.cache.now seconds
    ({ s with cache := s.cache.tick now }, .moment now)
  | .get key =>
    let (v, cache) := s.cache.get key
    ({ s with cache }, .value v)
  | .invalidate key =>
    let (b, cache) := s.cache.invalidate key
    ({ s with cache }, .flag b)
  | .invalidateSite site =>
    let (n, cache) := s.cache.invalidateSite site
    ({ s with cache }, .count n)
  | .cleanup =>
    let (n, cache) := s.cache.cleanup s.cache.now
    ({ s with cache }, .count n)
  | .clear => ({ s with cache := s.cache.clear }, .nothing)
  | .size => (s, .count s.cache.entries.length)
  | .close => ({ s with cache := s.cache.close }, .nothing)

def make (maxEntries : Int) (defaultTtl : τ) (maxWorkers : Int) (now : τ) :
    Except Failure (CacheSession τ V) := do
  let cache ← Cache.make maxEntries defaultTtl maxWorkers now
  return { cache, workers := maxWorkers.toNat }

/-- A gated flight is done once its result is published. -/
def isDone (s : CacheSession τ V) (g : GatedFlight V) : Bool :=
  (s.cache.flights[g.flight]?.map fun f => f.stage.isDone).getD false

end CacheSession

end CohortAnalytics
