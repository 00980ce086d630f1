import CohortAnalytics.Cohort.Compile
import CohortAnalytics.Number.Places
import CohortAnalytics.Query.Shapes
import CohortAnalytics.Service.Config
import CohortAnalytics.Service.Report

/-!
The numbers of a cohort, and of several cohorts side by side, as computations that ask the store.
-/

namespace CohortAnalytics

def AggregateRow.whole (r : AggregateRow) (name : String) : Except Failure Int :=
  (r.get name).toWhole

def quotient (num den : Int) : Except Failure Float :=
  match Binary.ofRatio? num den with
  | some x => .ok x
  | none => .error .beyondRange

namespace CohortReport

def clickRate (clicking sessions : Int) : Except Failure Float := do
  if sessions = 0 then return 0.0
  else return roundPlaces 1 ((← quotient clicking sessions) * 100)

def metricsOf (row : AggregateRow) : Except Failure CohortMetrics := do
  let sessions ← row.whole "sessions"
  let clicking ← row.whole "sessions_with_clicks"
  return {
    sessions
    totalEvents := ← row.whole "total_events"
    sessionsWithClicks := clicking
    totalClicks := ← row.whole "total_clicks"
    totalScrolls := ← row.whole "total_scrolls"
    clickRate := ← clickRate clicking sessions }

def pageOf (row : AggregateRow) : Except Failure PageRow := do
  return ⟨row.key.display, ← row.whole "views", ← row.whole "sessions"⟩

/-- A device without a name is shown as an empty text. -/
def deviceOf (row : AggregateRow) : Except Failure DeviceRow := do
  return ⟨if row.key.isNothing then "" else row.key.display, ← row.whole "sessions"⟩

def compiled (c : Cohort) : Except Failure Compiled :=
  match Compiled.ofRules? (c.rules.map .checked) with
  | some compiled => .ok compiled
  | none => .error .beyondRange

def compute (config : Config) (now : Instant) (c : Cohort) (window : Window) :
    Inquiry CohortReport := do
  let rules ← Inquiry.ofExcept (compiled c)
  let scope : Scope := { site := c.site, window, now, predicate := rules.predicate }
  let totals ← cohortSummary scope
  let pages ← CohortAnalytics.topPages (some config.topPagesLimit) scope
  let devices ← deviceBreakdown scope
  Inquiry.ofExcept do
    return {
      cohort := c
      metrics := ← metricsOf totals
      topPages := ← pages.mapM pageOf
      devices := ← devices.mapM deviceOf
      warnings := rules.warnings.map CompileWarning.text }

end CohortReport

namespace CohortComparison

def rowOf (c : Cohort) (row : AggregateRow) : Except Failure ComparisonRow := do
  let sessions ← row.whole "sessions"
  let events ← row.whole "total_events"
  let clicks ← row.whole "total_clicks"
  let perSession ← if sessions = 0 then pure 0.0 else quotient events sessions
  return ⟨c.id, c.name, sessions, events, clicks, roundPlaces 1 perSession⟩

def computeRow (now : Instant) (site : String) (window : Window) (c : Cohort) :
    Inquiry ComparisonRow := do
  let rules ← Inquiry.ofExcept (CohortReport.compiled c)
  let totals ← comparisonSummary { site, window, now, predicate := rules.predicate }
  Inquiry.ofExcept (rowOf c totals)

/-- One row per cohort, in the order given. -/
def computeRows (now : Instant) (site : String) (window : Window) :
    List Cohort → Inquiry (List ComparisonRow)
  | [] => pure []
  | c :: rest => do
    let row ← computeRow now site window c
    return row :: (← computeRows now site window rest)

def compute (now : Instant) (site : String) (cohorts : List Cohort) (window : Window) :
    Inquiry CohortComparison := do
  return { rows := ← computeRows now site window cohorts }

end CohortComparison

end CohortAnalytics
