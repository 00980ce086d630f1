import CohortAnalytics.Cache.Table
import CohortAnalytics.Failure

/-!
A result cache with its computations under way. The first caller of a missing key registers a
flight, later callers join it, and a worker brings it to its end; a flight that its last caller
leaves is cancelled.
-/

namespace CohortAnalytics

/-- How far a flight is. A worker, or the owner of a flight that no worker takes, settles it in the
tables first and publishes its result to the callers afterwards. -/
inductive FlightStage (τ V : Type)
  | registered
  | queued
  | running
  | returned (v : V)
  | stamped (v : V) (now : τ)
  | failed (f : Failure)
  | settled (r : Except Failure V)
  | done (r : Except Failure V)

structure Flight (τ V : Type) where
  key : String
  ttl : τ
  waiters : Nat := 1
  cancelled : Bool := false
  stage : FlightStage τ V := .registered

inductive Caller (V : Type)
  | submitting (flight : Nat)
  | refused (flight : Nat)
  | waiting (flight : Nat)
  | leaving (flight : Nat)
  | cancelling (flight : Nat)
  | answered (r : Except Failure V)

/-- Room for at least one entry, and the lifetime of a value that is given none of its own. -/
structure CacheLimits (τ : Type) where
  capacity : Nat
  defaultTtl : τ
  capacity_pos : 0 < capacity

/-- Flights and callers keep their place in their lists; keys in flight name a flight's place. -/
structure Cache (τ V : Type) where
  limits : CacheLimits τ
  now : τ
  entries : CacheTable τ V := []
  inFlight : Entries Nat := []
  flights : List (Flight τ V) := []
  callers : List (Caller V) := []
  closed : Bool := false
  hits : Nat := 0
  misses : Nat := 0
  evictions : Nat := 0

def CacheLimits.tooFew : String := "max_entries must be at least 1"

def CacheLimits.make (maxEntries : Int) {τ : Type} (defaultTtl : τ) :
    Except Failure (CacheLimits τ) :=
  if h : 0 < maxEntries then .ok ⟨maxEntries.toNat, defaultTtl, by omega⟩
  else .error (.invalid tooFew)

namespace FlightStage

variable {τ V : Type}

def isDone : FlightStage τ V → Bool
  | .done _ => true
  | _ => false

def isQueued : FlightStage τ V → Bool
  | .queued => true
  | _ => false

def isRunning : FlightStage τ V → Bool
  | .running => true
  | _ => false

end FlightStage

namespace Cache

variable {τ V : Type} [Clock τ]

def gaveUp (key : String) : Failure := .gaveUp ("Gave up waiting for " ++ key)

def neverStarted (key : String) : Failure :=
  .neverStarted ("Computation for " ++ key ++ " cancelled before it started")

def tooFewWorkers : String := "max_workers must be greater than 0"

/-- A new cache; it needs room for an entry, and somebody to compute one. -/
def make (maxEntries : Int) (defaultTtl : τ) (maxWorkers : Int) (now : τ) :
    Except Failure (Cache τ V) := do
  let limits ← CacheLimits.make maxEntries defaultTtl
  if 0 < maxWorkers then return { limits := limits, now := now } else .error (.invalid tooFewWorkers)

def closedFailure : Failure := .unexpected "cannot schedule new futures after shutdown"

def get (key : String) (c : Cache τ V) : Option V × Cache τ V :=
  let (e, entries) := c.entries.look c.now key
  (e.map CacheEntry.value, { c with entries })

def invalidate (key : String) (c : Cache τ V) : Bool × Cache τ V :=
  ((c.entries.find? key).isSome, { c with entries := c.entries.remove key })

def invalidateSite (site : String) (c : Cache τ V) : Nat × Cache τ V :=
  let entries := c.entries.dropSite site
  (c.entries.length - entries.length, { c with entries })

def cleanup (now : τ) (c : Cache τ V) : Nat × Cache τ V :=
  let entries := c.entries.sweep now
  (c.entries.length - entries.length, { c with entries })

def clear (c : Cache τ V) : Cache τ V := { c with entries := [] }

def close (c : Cache τ V) : Cache τ V := { c with closed := true }

def tick (now : τ) (c : Cache τ V) : Cache τ V := { c with now }

def modifyFlight (i : Nat) (f : Flight τ V → Flight τ V) (c : Cache τ V) : Cache τ V :=
  { c with flights := c.flights.modify i f }

def setStage (i : Nat) (stage : FlightStage τ V) (c : Cache τ V) : Cache τ V :=
  c.modifyFlight i fun f => { f with stage }

def addCaller (caller : Caller V) (c : Cache τ V) : Cache τ V :=
  { c with callers := c.callers ++ [caller] }

def setCaller (i : Nat) (caller : Caller V) (c : Cache τ V) : Cache τ V :=
  { c with callers := c.callers.set i caller }

/-- Takes a flight off the table of keys in flight; a newer flight of its key stays. -/
def dropFlight (key : String) (i : Nat) (c : Cache τ V) : Cache τ V :=
  if c.inFlight.find? key = some i then { c with inFlight := c.inFlight.remove key } else c

def register (key : String) (ttl : Option τ) (c : Cache τ V) : Cache τ V :=
  let i := c.flights.length
  let flight : Flight τ V := { key, ttl := ttl.getD c.limits.defaultTtl }
  { c with
    inFlight := c.inFlight.put key i
    flights := c.flights ++ [flight]
    callers := c.callers ++ [.submitting i] }

def join (i : Nat) (c : Cache τ V) : Cache τ V :=
  (c.modifyFlight i fun f => { f with waiters := f.waiters + 1 }).addCaller (.waiting i)

/-- A new caller of a key: it has the cached value, joins a flight or registers one. -/
def request (key : String) (ttl : Option τ) (c : Cache τ V) : Cache τ V :=
  match c.get key with
  | (some v, c) => ({ c with hits := c.hits + 1 } : Cache τ V).addCaller (.answered (.ok v))
  | (none, c) =>
    let c := { c with misses := c.misses + 1 }
    match c.inFlight.find? key with
    | some i => c.join i
    | none => c.register key ttl

/-- Stores a value under the moment at which it was computed. -/
def commit (f : Flight τ V) (v : V) (now : τ) (c : Cache τ V) : Cache τ V :=
  let (entries, evicted) :=
    c.entries.store c.limits.capacity f.key ⟨v, now, Clock.later now f.ttl⟩
  { c with entries, evictions := c.evictions + evicted }

/-- A caller leaves a flight. The last one to leave a flight that is not done takes it off the
table, so that nobody joins it any more, and has to cancel it. -/
def detach (caller i : Nat) (f : Flight τ V) (c : Cache τ V) : Cache τ V :=
  let waiters := f.waiters - 1
  let c := c.modifyFlight i fun f => { f with waiters }
  if waiters = 0 && !f.stage.isDone then
    (c.dropFlight f.key i).setCaller caller (.cancelling i)
  else c.setCaller caller (.answered (.error (gaveUp f.key)))

end Cache

end CohortAnalytics
