import CohortAnalytics.Cohort.Definition
import CohortAnalytics.Experiment.Definition
import CohortAnalytics.Statistics.Analysis

/-!
What the service answers with, and how it is written out. A report whose store could not answer
says so and shows no numbers.
-/

namespace CohortAnalytics

structure CohortMetrics where
  sessions : Int := 0
  totalEvents : Int := 0
  sessionsWithClicks : Int := 0
  totalClicks : Int := 0
  totalScrolls : Int := 0
  /-- percent of the sessions with at least one click -/
  clickRate : Float := 0.0

structure PageRow where
  path : String
  views : Int
  sessions : Int

structure DeviceRow where
  deviceType : String
  sessions : Int

structure CohortReport where
  cohort : Cohort
  metrics : CohortMetrics := {}
  topPages : List PageRow := []
  devices : List DeviceRow := []
  warnings : List String := []
  queryFailed : Bool := false

structure ComparisonRow where
  cohortId : String
  cohortName : String
  sessions : Int
  events : Int
  clicks : Int
  eventsPerSession : Float

structure CohortComparison where
  rows : List ComparisonRow := []
  queryFailed : Bool := false

structure ExperimentReport where
  id : String
  name : String
  status : ExperimentStatus
  startedAt : Option Stamp
  totalUsers : Nat := 0
  variants : List VariantStats := []
  isSignificant : Bool := false
  confidence : Float := 0.0
  winner : Option String := none
  z : Float := 0.0
  lift : Float := 0.0
  comparisons : List Comparison := []
  statusMessage : String := ""
  statusText : String := ""
  daysRunning : Int := 0
  sampleSize : Option Int := none
  hasEnoughData : Bool := false
  queryFailed : Bool := false

inductive Report
  | cohort (r : CohortReport)
  | comparison (r : CohortComparison)
  | experiment (r : ExperimentReport)

namespace CohortReport

def failed (c : Cohort) : CohortReport := { cohort := c, queryFailed := true }

def metricsJson (m : CohortMetrics) : Json :=
  .object [("sessions", .int m.sessions), ("total_events", .int m.totalEvents),
    ("sessions_with_clicks", .int m.sessionsWithClicks), ("total_clicks", .int m.totalClicks),
    ("total_scrolls", .int m.totalScrolls), ("click_rate", .float m.clickRate)]

def pageJson (p : PageRow) : Json :=
  .object [("page_path", .text p.path), ("views", .int p.views), ("sessions", .int p.sessions)]

def deviceJson (d : DeviceRow) : Json :=
  .object [("device_type", .text d.deviceType), ("sessions", .int d.sessions)]

def toJson (r : CohortReport) : Json :=
  .object [("cohort", r.cohort.toJson), ("metrics", metricsJson r.metrics),
    ("top_pages", .array (r.topPages.map pageJson)),
    ("device_breakdown", .array (r.devices.map deviceJson)),
    ("warnings", .array (r.warnings.map .text)), ("query_failed", .bool r.queryFailed)]

end CohortReport

namespace CohortComparison

def rowJson (r : ComparisonRow) : Json :=
  .object [("cohort_id", .text r.cohortId), ("cohort_name", .text r.cohortName),
    ("sessions", .int r.sessions), ("events", .int r.events), ("clicks", .int r.clicks),
    ("events_per_session", .float r.eventsPerSession)]

def rowsJson (c : CohortComparison) : Json := .array (c.rows.map rowJson)

def toJson (c : CohortComparison) : Json :=
  .object [("comparison", c.rowsJson), ("query_failed", .bool c.queryFailed)]

end CohortComparison

namespace ExperimentReport

def failed (e : Experiment) : ExperimentReport :=
  { id := e.id, name := e.name, status := e.status, startedAt := e.startedAt, queryFailed := true }

def optional {α : Type} (f : α → Json) : Option α → Json
  | some a => f a
  | none => .null

def goalJson (g : GoalStats) : Json :=
  .object [("goal_id", .text g.goalId), ("goal_name", .text g.goalName),
    ("goal_type", .text g.goalType), ("is_primary", .bool g.isPrimary),
    ("conversions", .int g.conversions), ("conversion_rate", .float g.rate),
    ("total_revenue", optional .float g.totalRevenue),
    ("avg_order_value", optional .float g.averageOrder),
    ("revenue_per_visitor", optional .float g.revenuePerVisitor)]

/-- A variant without a name goes by its id. -/
def shownName (v : VariantStats) : String := if v.name = "" then v.id else v.name

def variantJson (v : VariantStats) : Json :=
  .object [("variant_id", .text v.id), ("variant_name", .text (shownName v)),
    ("users", .int v.users), ("conversions", .int v.conversions),
    ("conversion_rate", .float v.rate), ("goals", .array (v.goals.map goalJson))]

def comparisonJson (c : Comparison) : Json :=
  .object [("variant_id", .text c.variant), ("control_id", .text c.control),
    ("z_score", .float c.z), ("confidence_level", .float c.confidence),
    ("lift_percentage", .float c.lift), ("is_significant", .bool c.isSignificant)]

def toJson (r : ExperimentReport) : Json :=
  .object [("experiment_id", .text r.id), ("experiment_name", .text r.name),
    ("status", .text r.status.name), ("total_users", .int r.totalUsers),
    ("variants", .array (r.variants.map variantJson)),
    ("is_significant", .bool r.isSignificant), ("confidence_level", .float r.confidence),
    ("winner_variant_id", optional .text r.winner), ("z_score", .float r.z),
    ("lift_percentage", .float r.lift),
    ("comparisons", .array (r.comparisons.map comparisonJson)),
    ("status_message", .text r.statusMessage), ("status_text", .text r.statusText),
    ("started_at", optional (fun s => .text (Stamp.zuluText s)) r.startedAt),
    ("days_running", .int r.daysRunning),
    ("minimum_sample_size", optional .int r.sampleSize),
    ("has_enough_data", .bool r.hasEnoughData), ("query_failed", .bool r.queryFailed)]

end ExperimentReport

namespace Report

def toJson : Report → Json
  | .cohort r => r.toJson
  | .comparison r => r.toJson
  | .experiment r => r.toJson

def queryFailed : Report → Bool
  | .cohort r => r.queryFailed
  | .comparison r => r.queryFailed
  | .experiment r => r.queryFailed

end Report

end CohortAnalytics
