import CohortAnalytics.Query.Aggregate

/-!
The aggregates that the service shows: a cohort's numbers, its pages and devices, and the variants
and goals of an experiment.
-/

namespace CohortAnalytics

def summary (measures : List Measure) (scope : Scope) : Inquiry AggregateRow := do
  let rows ← aggregate scope { measures := measures }
  return (rows.find? .null).getD (AggregateRow.zero measures)

def cohortSummary (scope : Scope) : Inquiry AggregateRow := summary Measure.cohortSummary scope

def comparisonSummary (scope : Scope) : Inquiry AggregateRow :=
  summary [.sessions, .totalEvents, .totalClicks] scope

def defaultPageLimit : Int := 10

def topPages (limit : Option Int) (scope : Scope) : Inquiry (List AggregateRow) := do
  let rows ← aggregate scope
    { grouping := .byPage, measures := [.views, .sessions], filters := [Filter.hasPath],
      orderBy := some "views", limit }
  return rows.map Prod.snd

def deviceBreakdown (scope : Scope) : Inquiry (List AggregateRow) := do
  let rows ← aggregate scope { grouping := .byDevice, measures := [.sessions] }
  return rows.map Prod.snd

def Json.isNull : Json → Bool
  | .null => true
  | _ => false

/-- Conversions above users are cut down to users. -/
def clampConversions (row : AggregateRow) : AggregateRow :=
  if (row.get "users").lt (row.get "conversions") then
    { row with values := row.values.put "conversions" (row.get "users") }
  else row

/-- Rows under the text of their variant; those without a variant are left out. -/
def countsByVariant (rows : AggregateRows) : Entries AggregateRow :=
  Entries.ofList ((rows.filter fun r => !r.1.isNull).map fun (key, row) =>
    (key.display, clampConversions row))

/-- Users and those of them who converted, for each variant of an experiment. -/
def variantCounts (experiment goalEvent : String) (scope : Scope) :
    Inquiry (Entries AggregateRow) := do
  let rows ← aggregate { scope with predicate := [] }
    { grouping := .byVariant experiment, measures := [.users, .conversions experiment goalEvent],
      filters := [Filter.takesPart experiment] }
  return countsByVariant rows

/-- A row of goals belongs to a variant, a goal and a goal type; the first two are never null. -/
structure GoalRow where
  variant : Json
  goal : Json
  type : Json
  row : AggregateRow

def goalRows (rows : AggregateRows) : List GoalRow :=
  rows.filterMap fun (key, row) =>
    match key with
    | .array [variant, goal, type] =>
      if variant.isNull || goal.isNull then none else some ⟨variant, goal, type, row⟩
    | _ => none

def goalBreakdown (experiment : String) (scope : Scope) : Inquiry (List GoalRow) := do
  let rows ← aggregate { scope with predicate := [] }
    { grouping := .byGoal, measures := [.goalConversions, .totalRevenue],
      filters := [Filter.typeIs goalType, Filter.payloadIs "experiment_id" experiment] }
  return goalRows rows

end CohortAnalytics
