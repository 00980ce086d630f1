import CohortAnalytics.Failure
import CohortAnalytics.Query.Measure
import CohortAnalytics.Warehouse.Table

/-!
Aggregate queries: their statement for the store, and their answer on a table of events.
-/

namespace CohortAnalytics

-- Powers are the ones of core, whatever else is in scope.
attribute [local instance (high)] instPowNat

structure Query where
  grouping : Grouping := .none
  measures : List Measure := Measure.cohortSummary
  filters : List Filter := []
  orderBy : Option String := none
  limit : Option Int := none

/-- What a store answers with: values under their column names. -/
abbrev StoreRow := Entries Json

namespace Query

def statement (q : Query) : Statement where
  groups := q.grouping.fragments
  measures := q.measures.map fun m => (m.name, m.fragment)
  filters := q.filters.map Filter.fragment
  orderBy := q.orderBy
  limit := q.limit

/-- The order of groups; what has no value comes last. -/
def keyLe : List (Option String) → List (Option String) → Bool
  | [], _ => true
  | _ :: _, [] => false
  | none :: a, none :: b => keyLe a b
  | none :: _, some _ :: _ => false
  | some _ :: _, none :: _ => true
  | some s :: a, some t :: b => s < t || (s == t && keyLe a b)

structure Group where
  key : List (Option String)
  rows : List StoredEvent

/-- Without grouping there is one group, also of no events. -/
def groups (g : Grouping) (rows : List StoredEvent) : List Group :=
  if g = .none then [⟨[], rows⟩]
  else
    ((rows.map fun e => g.key e).eraseDups.mergeSort keyLe).map fun key =>
      ⟨key, rows.filter fun e => g.key e == key⟩

def measureNamed? (q : Query) (name : String) : Option Measure :=
  q.measures.find? (·.name == name)

/-- Greatest first, groups of one value in their own order. -/
def ordered (q : Query) (gs : List Group) : List Group :=
  match q.orderBy.bind q.measureNamed? with
  | none => gs
  | some m => gs.mergeSort fun a b => (m.value b.rows).le (m.value a.rows)

def cell : Option String → Json
  | some s => .text s
  | none => .null

def row (q : Query) (g : Group) : StoreRow :=
  Entries.ofList
    ((List.range g.key.length).zipWith (fun i v => (Statement.groupName i, cell v)) g.key ++
      q.measures.map fun m => (m.name, .number (m.value g.rows)))

def selected (c : Clause) (t : EventTable) : List StoredEvent := t.rows.filter c.holds

/-- A limit is a count of 63 bits. -/
def isLimit (n : Int) : Bool := 0 ≤ n && n < 2 ^ (63 : Nat)

def answer (q : Query) (c : Clause) (t : EventTable) : List StoreRow :=
  let rows := (q.ordered (groups q.grouping (selected c t))).map q.row
  match q.limit with
  | some n => rows.take n.toNat
  | none => rows

def run (q : Query) (t : EventTable) : Except StoreFailure (List StoreRow) :=
  match Filter.joined? q.filters with
  | none => .error (.rejected none)
  | some c =>
    if q.limit.all isLimit then .ok (q.answer c t) else .error (.rejected none)

end Query

end CohortAnalytics
