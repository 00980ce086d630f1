import CohortAnalytics.Query.Basic

/-!
Computations that ask a store. What a computation asks and what it makes of the answers is one
value; a store is put to it afterwards, so the same computation runs on a table of events and on
any other source of replies. A failing reply fails the whole computation.
-/

namespace CohortAnalytics

inductive Inquiry (α : Type)
  | done (result : Except Failure α)
  | ask (q : Query) (next : List StoreRow → Inquiry α)

/-- A reply may also be kept back until nobody waits for it. -/
inductive Reply
  | rows (rs : List StoreRow)
  | failure (f : Failure)
  | stalled

/-- A store answers a query and may change by it. -/
abbrev Store (σ : Type) := Query → σ → Reply × σ

inductive Outcome (α : Type)
  | finished (result : Except Failure α)
  | stalled

structure Run (σ α : Type) where
  outcome : Outcome α
  asked : List Query
  state : σ

namespace Inquiry

variable {α β σ : Type}

protected def pure (a : α) : Inquiry α := .done (.ok a)

def fail (f : Failure) : Inquiry α := .done (.error f)

def ofExcept (r : Except Failure α) : Inquiry α := .done r

protected def bind (i : Inquiry α) (f : α → Inquiry β) : Inquiry β :=
  match i with
  | .done (.ok a) => f a
  | .done (.error e) => .done (.error e)
  | .ask q next => .ask q fun rows => (next rows).bind f

instance : Monad Inquiry where
  pure := Inquiry.pure
  bind := Inquiry.bind

def query (q : Query) : Inquiry (List StoreRow) := .ask q .pure

def run (store : Store σ) (i : Inquiry α) (s : σ) : Run σ α :=
  match i with
  | .done r => ⟨.finished r, [], s⟩
  | .ask q next =>
    match store q s with
    | (.rows rs, s) =>
      let r := (next rs).run store s
      { r with asked := q :: r.asked }
    | (.failure f, s) => ⟨.finished (.error f), [q], s⟩
    | (.stalled, s) => ⟨.stalled, [q], s⟩

end Inquiry

namespace Store

/-- Answers from a table, which no query changes. -/
def table : Store EventTable := fun q t =>
  (match q.run t with
    | .ok rows => .rows rows
    | .error f => .failure (.store f), t)

/-- A table that may have been dropped; without it every query is rejected. -/
def warehouse : Store (Option EventTable) := fun q t =>
  match t with
  | some table => ((Store.table q table).1, t)
  | none => (.failure (.store (.rejected none)), t)

/-- Replies in order, and no rows after the last of them. -/
def script : Store (List Reply) := fun _ replies =>
  match replies with
  | [] => (.rows [], [])
  | r :: rest => (r, rest)

def cancelledMessage : String := "Query cancelled before it started"

/-- A store that nobody waits for. -/
def cancelled {σ : Type} : Store σ := fun _ s =>
  (.failure (.store (.cancelled cancelledMessage)), s)

end Store

end CohortAnalytics
