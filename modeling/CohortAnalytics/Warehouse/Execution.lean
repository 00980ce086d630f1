import CohortAnalytics.Cancellation.Token
import CohortAnalytics.Number.Places
import CohortAnalytics.Query.Inquiry

/-!
One query on one cursor. The executing thread registers an interrupt on its token, checks that it
is still wanted, arms a timer, sends the query and fetches the rows, and then takes everything
down again. Meanwhile a timer and the threads that hold the token may interrupt the cursor: both
first note why, and strike the cursor next.
-/

namespace CohortAnalytics

inductive CursorError
  | engine (message : String)
  | other (f : Failure)

/-- How a cursor will behave: the columns or the error it answers a query with, and the rows or
the error it answers a fetch with. One that waits keeps the query back until it is interrupted. -/
structure CursorScript where
  waits : Bool := false
  sent : Except CursorError (List String) := .ok []
  fetched : Except CursorError (List (List Json)) := .ok []

structure ExecutionPlan where
  script : CursorScript
  timeout : Float := 30
  /-- whether the query runs under a token -/
  underToken : Bool := true

inductive ExecutionPhase
  | registering
  | checking
  | sending
  | fetching (columns : List String)
  /-- about to look whether the query was cancelled -/
  | failing (e : CursorError)
  /-- it was not: about to look whether it ran out of time -/
  | blaming (message : String)
  | stoppingTimer (result : Except Failure (List StoreRow))
  | unregistering (result : Except Failure (List StoreRow))
  | closing (result : Except Failure (List StoreRow))
  | over (result : Except Failure (List StoreRow))

inductive TimerState
  | idle
  | armed
  | due
  | striking
  | fired
  | stopped
  deriving DecidableEq

/-- Callbacks on the token: the interrupt of this query's cursor, and those of others. -/
inductive TokenUse
  | interrupt
  | other (n : Nat)
  deriving DecidableEq

/-- The executing thread is thread 0 of the token's threads. -/
structure Execution where
  phase : ExecutionPhase := .registering
  token : TokenThreads TokenUse := {}
  /-- threads inside this query's callback that have yet to strike the cursor -/
  striking : List Nat := []
  timer : TimerState := .idle
  cancelled : Bool := false
  timedOut : Bool := false
  queries : Nat := 0
  closes : Nat := 0
  interrupts : Nat := 0
  /-- interrupts of the cursor after it was closed -/
  lateInterrupts : Nat := 0

inductive ExecutionStep
  | proceed
  | timerDue
  | timerFires
  | timerStrikes
  | token (s : TokenStep TokenUse)
  | strike (thread : Nat)

namespace TokenStep

def isForeign : TokenStep TokenUse → Bool
  | .add thread c => thread != 0 && c != .interrupt
  | .remove c => c != .interrupt
  | .cancel thread => thread != 0
  | .fire thread => thread != 0

end TokenStep

namespace Execution

def beforeStart : Failure := .store (.cancelled Store.cancelledMessage)

def timeoutMessage (timeout : Float) : String :=
  "Query exceeded " ++ fixedPlaces 1 timeout ++ "s timeout"

def cancelledFailure : Failure := .store (.cancelled "Query cancelled")

def timeoutFailure (timeout : Float) : Failure := .store (.timedOut (timeoutMessage timeout))

/-- Values under their columns; of two columns of one name the later holds. -/
def namedRow (columns : List String) (row : List Json) : StoreRow :=
  Entries.ofList (columns.zip row)

def interrupted (e : Execution) : Execution :=
  { e with
    interrupts := e.interrupts + 1
    lateInterrupts := if e.closes = 0 then e.lateInterrupts else e.lateInterrupts + 1 }

/-- The first half of a callback. -/
def enter (e : Execution) (thread : Nat) : TokenUse → Execution
  | .interrupt => { e with cancelled := true, striking := thread :: e.striking }
  | .other _ => e

/-- A step on the token. A thread runs one callback after the other. -/
def tokenStep? (e : Execution) : TokenStep TokenUse → Option Execution
  | .fire thread =>
    if thread ∈ e.striking then none
    else match e.token.queues thread with
      | [] => none
      | c :: _ =>
        (e.token.step? (.fire thread)).map fun token =>
          ({ e with token } : Execution).enter thread c
  | s => (e.token.step? s).map fun token => { e with token }

def strike? (e : Execution) (thread : Nat) : Option Execution :=
  if thread ∈ e.striking then
    some { e.interrupted with striking := e.striking.erase thread }
  else none

def check (e : Execution) : Execution :=
  if e.cancelled then { e with phase := .stoppingTimer (.error beforeStart) }
  else { e with phase := .sending, timer := .armed, queries := e.queries + 1 }

/-- The executing thread's next action; none where it has to wait or is over. -/
def proceed? (plan : ExecutionPlan) (e : Execution) : Option Execution :=
  match e.phase with
  | .registering =>
    if plan.underToken then
      ({ e with phase := .checking } : Execution).tokenStep? (.add 0 .interrupt)
    else some { e with phase := .checking }
  | .checking =>
    if 0 ∈ e.striking then e.strike? 0
    else if (e.token.queues 0).isEmpty then some e.check
    else e.tokenStep? (.fire 0)
  | .sending =>
    if plan.script.waits && e.interrupts == 0 then none
    else match plan.script.sent with
      | .ok columns => some { e with phase := .fetching columns }
      | .error err => some { e with phase := .failing err }
  | .fetching columns =>
    match plan.script.fetched with
    | .ok rows => some { e with phase := .stoppingTimer (.ok (rows.map (namedRow columns))) }
    | .error err => some { e with phase := .failing err }
  | .failing (.other f) => some { e with phase := .stoppingTimer (.error f) }
  | .failing (.engine message) =>
    if e.cancelled then some { e with phase := .stoppingTimer (.error cancelledFailure) }
    else some { e with phase := .blaming message }
  | .blaming message =>
    if e.timedOut then
      some { e with phase := .stoppingTimer (.error (timeoutFailure plan.timeout)) }
    else some { e with phase := .stoppingTimer (.error (.store (.rejected (some message)))) }
  | .stoppingTimer r =>
    some { e with
      phase := .unregistering r
      timer := if e.timer = .idle ∨ e.timer = .armed then .stopped else e.timer }
  | .unregistering r =>
    if plan.underToken then ({ e with phase := .closing r } : Execution).tokenStep? (.remove .interrupt)
    else some { e with phase := .closing r }
  | .closing r => some { e with phase := .over r, closes := e.closes + 1 }
  | .over _ => none

def step? (plan : ExecutionPlan) (e : Execution) : ExecutionStep → Option Execution
  | .proceed => e.proceed? plan
  | .timerDue => if e.timer = .armed then some { e with timer := .due } else none
  | .timerFires =>
    if e.timer = .due then some { e with timer := .striking, timedOut := true } else none
  | .timerStrikes =>
    if e.timer = .striking then some { e.interrupted with timer := .fired } else none
  | .token s => if s.isForeign then e.tokenStep? s else none
  | .strike thread => if thread ≠ 0 then e.strike? thread else none

def run? (plan : ExecutionPlan) (e : Execution) (steps : List ExecutionStep) : Option Execution :=
  steps.foldlM (step? plan) e

def attempt (plan : ExecutionPlan) (e : Execution) (s : ExecutionStep) : Execution :=
  (e.step? plan s).getD e

def result? (e : Execution) : Option (Except Failure (List StoreRow)) :=
  match e.phase with
  | .over r => some r
  | _ => none

def isSending (e : Execution) : Bool :=
  match e.phase with
  | .sending => true
  | _ => false

/-- Goes on alone, up to a number of actions, until the query is sent. -/
def untilSent (plan : ExecutionPlan) : Nat → Execution → Execution
  | 0, e => e
  | n + 1, e => if e.isSending then e else untilSent plan n (e.attempt plan .proceed)

/-- More than the executing thread ever takes. -/
def longest : Nat := 12

def goOn (plan : ExecutionPlan) (e : Execution) : Execution :=
  (List.replicate longest .proceed).foldl (attempt plan) e

def cancelElsewhere (plan : ExecutionPlan) (e : Execution) : Execution :=
  let e := e.attempt plan (.token (.cancel 1))
  (List.replicate (e.token.queues 1).length [.token (.fire 1), .strike 1]).flatten.foldl
    (attempt plan) e

end Execution

inductive CancelMoment
  | before
  | during
  deriving DecidableEq

/-- A whole query under one order of events: the token is cancelled before the call or once the
query is sent, and the timer fires only on a query that goes on waiting. -/
def ExecutionPlan.rehearse (plan : ExecutionPlan) (cancel : Option CancelMoment) : Execution :=
  let e : Execution := {}
  let e := if cancel = some .before then e.cancelElsewhere plan else e
  let e := e.untilSent plan Execution.longest
  let e := if cancel = some .during then e.cancelElsewhere plan else e
  let e := e.goOn plan
  let e := match e.result? with
    | some _ => e
    | none => [ExecutionStep.timerDue, .timerFires, .timerStrikes].foldl (Execution.attempt plan) e
  e.goOn plan

end CohortAnalytics
