import CohortAnalytics.Cache.Flight

/-!
What callers, workers and the owner of a cache may do, one indivisible step at a time. Any order of
steps that can be taken is a run.
-/

namespace CohortAnalytics

inductive CacheStep (τ V : Type)
  | request (key : String) (ttl : Option τ)
  | submit (caller : Nat)
  | start (flight : Nat)
  | finish (flight : Nat) (r : Except Failure V)
  | stamp (flight : Nat)
  | settle (flight : Nat)
  | publish (flight : Nat)
  | collect (caller : Nat)
  | giveUp (caller : Nat)
  | detach (caller : Nat)
  | cancelToken (caller : Nat)
  | get (key : String)
  | invalidate (key : String)
  | invalidateSite (site : String)
  | cleanup (now : τ)
  | clear
  | close
  | tick (now : τ)

namespace Cache

variable {τ V : Type} [Clock τ]

/-- The owner hands its flight to the workers, who take nothing more once the cache is closed. -/
def submit? (caller : Nat) (c : Cache τ V) : Option (Cache τ V) :=
  match c.callers[caller]? with
  | some (.submitting i) =>
    if c.closed then some ((c.setStage i (.failed closedFailure)).setCaller caller (.refused i))
    else some ((c.setStage i .queued).setCaller caller (.waiting i))
  | _ => none

/-- A worker takes a flight up, unless it was cancelled while it waited. -/
def start? (i : Nat) (c : Cache τ V) : Option (Cache τ V) :=
  match c.flights[i]? with
  | some f =>
    match f.stage with
    | .queued =>
      some (c.setStage i (if f.cancelled then .failed (neverStarted f.key) else .running))
    | _ => none
  | none => none

def finish? (i : Nat) (r : Except Failure V) (c : Cache τ V) : Option (Cache τ V) :=
  match c.flights[i]? with
  | some f =>
    match f.stage, r with
    | .running, .ok v => some (c.setStage i (.returned v))
    | .running, .error e => some (c.setStage i (.failed e))
    | _, _ => none
  | none => none

def stamp? (i : Nat) (c : Cache τ V) : Option (Cache τ V) :=
  match c.flights[i]? with
  | some f =>
    match f.stage with
    | .returned v => some (c.setStage i (.stamped v c.now))
    | _ => none
  | none => none

/-- A value is stored, whatever became of its flight; a failure is not. -/
def settle? (i : Nat) (c : Cache τ V) : Option (Cache τ V) :=
  match c.flights[i]? with
  | some f =>
    match f.stage with
    | .stamped v now =>
      some (((c.commit f v now).dropFlight f.key i).setStage i (.settled (.ok v)))
    | .failed e => some ((c.dropFlight f.key i).setStage i (.settled (.error e)))
    | _ => none
  | none => none

def publish? (i : Nat) (c : Cache τ V) : Option (Cache τ V) :=
  match c.flights[i]? with
  | some f =>
    match f.stage with
    | .settled r => some (c.setStage i (.done r))
    | _ => none
  | none => none

/-- A caller takes the result of a flight that is done. A wait that ran out inside the computation
cannot be told from the caller's own. -/
def collect? (caller : Nat) (c : Cache τ V) : Option (Cache τ V) :=
  match c.callers[caller]? with
  | some (.waiting i) =>
    match c.flights[i]?.map Flight.stage with
    | some (.done (.error .outOfTime)) => some (c.setCaller caller (.leaving i))
    | some (.done r) => some (c.setCaller caller (.answered r))
    | _ => none
  | some (.refused i) =>
    match c.flights[i]?.map Flight.stage with
    | some (.done r) => some (c.setCaller caller (.answered r))
    | _ => none
  | _ => none

/-- A caller's patience runs out before the flight is done. -/
def giveUp? (caller : Nat) (c : Cache τ V) : Option (Cache τ V) :=
  match c.callers[caller]? with
  | some (.waiting i) =>
    match c.flights[i]? with
    | some f => if f.stage.isDone then none else some (c.setCaller caller (.leaving i))
    | none => none
  | _ => none

def detach? (caller : Nat) (c : Cache τ V) : Option (Cache τ V) :=
  match c.callers[caller]? with
  | some (.leaving i) => c.flights[i]?.map fun f => c.detach caller i f
  | _ => none

def cancelToken? (caller : Nat) (c : Cache τ V) : Option (Cache τ V) :=
  match c.callers[caller]? with
  | some (.cancelling i) =>
    c.flights[i]?.map fun f =>
      (c.modifyFlight i fun f => { f with cancelled := true }).setCaller caller
        (.answered (.error (gaveUp f.key)))
  | _ => none

def step? (c : Cache τ V) : CacheStep τ V → Option (Cache τ V)
  | .request key ttl => some (c.request key ttl)
  | .submit caller => c.submit? caller
  | .start i => c.start? i
  | .finish i r => c.finish? i r
  | .stamp i => c.stamp? i
  | .settle i => c.settle? i
  | .publish i => c.publish? i
  | .collect caller => c.collect? caller
  | .giveUp caller => c.giveUp? caller
  | .detach caller => c.detach? caller
  | .cancelToken caller => c.cancelToken? caller
  | .get key => some (c.get key).2
  | .invalidate key => some (c.invalidate key).2
  | .invalidateSite site => some (c.invalidateSite site).2
  | .cleanup now => some (c.cleanup now).2
  | .clear => some c.clear
  | .close => some c.close
  | .tick now => some (c.tick now)

def run? (c : Cache τ V) (steps : List (CacheStep τ V)) : Option (Cache τ V) :=
  steps.foldlM step? c

def attempt (c : Cache τ V) (steps : List (CacheStep τ V)) : Cache τ V :=
  steps.foldl (fun c s => (c.step? s).getD c) c

def answer? (caller : Nat) (c : Cache τ V) : Option (Except Failure V) :=
  match c.callers[caller]? with
  | some (.answered r) => some r
  | _ => none

end Cache

end CohortAnalytics
