import CohortAnalytics.Json.Number
import CohortAnalytics.Query.Inquiry
import CohortAnalytics.Time.Window

/-!
Aggregates of a site's events in a window under a predicate: one query, and its rows keyed by the
values they are grouped by.
-/

namespace CohortAnalytics

/-- The numbers of one group. A measure without a number counts as zero. -/
structure AggregateRow where
  key : Json
  values : Entries Number

namespace AggregateRow

def getD (r : AggregateRow) (name : String) (default : Number) : Number :=
  (r.values.find? name).getD default

def get (r : AggregateRow) (name : String) : Number := r.getD name (.int 0)

def zero (measures : List Measure) : AggregateRow :=
  ⟨.null, Entries.ofList (measures.map fun m => (m.name, .int 0))⟩

end AggregateRow

/-- Rows under distinct keys, in the order in which the keys first appeared. -/
abbrev AggregateRows := List (Json × AggregateRow)

namespace AggregateRows

/-- A later row for a key takes the place of the earlier one. -/
def put (key : Json) (row : AggregateRow) : AggregateRows → AggregateRows
  | [] => [(key, row)]
  | (k, r) :: rest => if k.same key then (k, row) :: rest else (k, r) :: put key row rest

def find? (key : Json) (rows : AggregateRows) : Option AggregateRow :=
  (List.find? (·.1.same key) rows).map Prod.snd

end AggregateRows

/-- What a row is kept under: nothing, one value, or a list of them. -/
def rowKey (width : Nat) (row : StoreRow) : List Json × Json :=
  let parts := (List.range width).map fun i =>
    (Entries.find? (Statement.groupName i) row).getD .null
  (parts, match parts with
    | [] => .null
    | [v] => v
    | vs => .array vs)

/-- Lists and objects cannot be kept under. -/
def isKeyPart : Json → Bool
  | .array _ => false
  | .object _ => false
  | _ => true

def rowNumbers (measures : List Measure) (row : StoreRow) : Except Failure (Entries Number) := do
  let numbers ← measures.mapM fun m => do
    return (m.name, ← ((Entries.find? m.name row).getD .null).toNumber)
  return Entries.ofList numbers

def collectRow (q : Query) (rows : AggregateRows) (row : StoreRow) :
    Except Failure AggregateRows := do
  let (parts, key) := rowKey q.grouping.width row
  let values ← rowNumbers q.measures row
  if parts.all isKeyPart then return rows.put key ⟨key, values⟩ else .error .wrongKind

def collectRows (q : Query) (rows : List StoreRow) : Except Failure AggregateRows :=
  rows.foldlM (collectRow q) []

structure Scope where
  site : String
  window : Window
  now : Instant
  predicate : Predicate := []

structure AggregateShape where
  grouping : Grouping := .none
  measures : List Measure := Measure.cohortSummary
  filters : List Filter := []
  orderBy : Option String := none
  limit : Option Int := none

namespace AggregateShape

def query (shape : AggregateShape) (site : String) (start finish : Instant) (p : Predicate) :
    Query where
  grouping := shape.grouping
  measures := shape.measures
  filters :=
    [Filter.site site, Filter.window start finish] ++ shape.filters ++ [Filter.predicate p]
  orderBy := shape.orderBy
  limit := shape.limit

def unknownOrder (name : String) : Failure :=
  .invalid ("Cannot order by unknown measure " ++ quotedText name)

/-- The order, if there is one, has to name a measure. -/
def checkOrder (shape : AggregateShape) : Except Failure Unit :=
  match shape.orderBy with
  | none => .ok ()
  | some name =>
    if shape.measures.any (·.name == name) then .ok () else .error (unknownOrder name)

def resolved (scope : Scope) : Except Failure (Instant × Instant) :=
  match scope.window.resolve? scope.now with
  | some bounds => .ok bounds
  | none => .error .beyondRange

end AggregateShape

def aggregate (scope : Scope) (shape : AggregateShape) : Inquiry AggregateRows := do
  Inquiry.ofExcept shape.checkOrder
  let (start, finish) ← Inquiry.ofExcept (AggregateShape.resolved scope)
  let q := shape.query scope.site start finish scope.predicate
  let rows ← Inquiry.query q
  Inquiry.ofExcept (collectRows q rows)

end CohortAnalytics
