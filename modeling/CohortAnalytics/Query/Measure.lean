import CohortAnalytics.Query.Filter
import CohortAnalytics.Warehouse.Cast

/-!
Measures over a group of events, and the ways to group them. Each has a text for the store and a
value on the events themselves.
-/

namespace CohortAnalytics

def clickType : String := "click"

def scrollType : String := "scroll"

def goalType : String := "experiment_goal"

inductive Measure
  | sessions
  | totalEvents
  | sessionsWithClicks
  | totalClicks
  | totalScrolls
  | views
  | users
  | goalConversions
  | totalRevenue
  | conversions (experiment goalEvent : String)
  deriving DecidableEq

namespace Measure

def name : Measure → String
  | .sessions => "sessions"
  | .totalEvents => "total_events"
  | .sessionsWithClicks => "sessions_with_clicks"
  | .totalClicks => "total_clicks"
  | .totalScrolls => "total_scrolls"
  | .views => "views"
  | .users => "users"
  | .goalConversions => "conversions"
  | .totalRevenue => "total_revenue"
  | .conversions _ _ => "conversions"

def distinctSessions : String := "COUNT(DISTINCT session_id)"

def typeFilter (type : String) : String := " FILTER (WHERE event_type = '" ++ type ++ "')"

def conversionsText : String :=
  distinctSessions ++ " FILTER (WHERE event_type = ? OR " ++ Filter.payloadText "event_name" ++
    " = ? OR (event_type = '" ++ goalType ++ "' AND " ++ Filter.payloadText "experiment_id" ++
    " = ?))"

def fragment : Measure → Fragment
  | .sessions => ⟨distinctSessions, []⟩
  | .totalEvents => ⟨"COUNT(*)", []⟩
  | .sessionsWithClicks => ⟨distinctSessions ++ typeFilter clickType, []⟩
  | .totalClicks => ⟨"COUNT(*)" ++ typeFilter clickType, []⟩
  | .totalScrolls => ⟨"COUNT(*)" ++ typeFilter scrollType, []⟩
  | .views => ⟨"COUNT(*)", []⟩
  | .users => ⟨distinctSessions, []⟩
  | .goalConversions => ⟨distinctSessions, []⟩
  | .totalRevenue =>
    ⟨"COALESCE(SUM(TRY_CAST(" ++ Filter.payloadText "revenue_value" ++ " AS DOUBLE)), 0)", []⟩
  | .conversions experiment goalEvent =>
    ⟨conversionsText, [goalEvent, goalEvent, experiment].map Filter.textParam⟩

def sessionCount (rows : List StoredEvent) : Nat :=
  (rows.map StoredEvent.session).eraseDups.length

def isType (type : String) (e : StoredEvent) : Bool := e.type == type

/-- An event of the goal's type or name counts for every experiment the session takes part in, a
goal event only for the experiment it names. -/
def converts (experiment goalEvent : String) (e : StoredEvent) : Bool :=
  e.type == goalEvent || e.payload? "event_name" == some goalEvent ||
    (e.type == goalType && e.payload? "experiment_id" == some experiment)

def revenue (rows : List StoredEvent) : Float :=
  ((rows.filterMap (·.payload? "revenue_value")).filterMap Cast.real?).foldl (· + ·) 0.0

def value (rows : List StoredEvent) : Measure → Number
  | .sessions => .int (sessionCount rows)
  | .totalEvents => .int rows.length
  | .sessionsWithClicks => .int (sessionCount (rows.filter (isType clickType)))
  | .totalClicks => .int (rows.filter (isType clickType)).length
  | .totalScrolls => .int (rows.filter (isType scrollType)).length
  | .views => .int rows.length
  | .users => .int (sessionCount rows)
  | .goalConversions => .int (sessionCount rows)
  | .totalRevenue => .float (revenue rows)
  | .conversions experiment goalEvent =>
    .int (sessionCount (rows.filter (converts experiment goalEvent)))

def cohortSummary : List Measure :=
  [.sessions, .totalEvents, .sessionsWithClicks, .totalClicks, .totalScrolls]

end Measure

inductive Grouping
  | none
  | byPage
  | byDevice
  | byGoal
  | byVariant (experiment : String)
  deriving DecidableEq

namespace Grouping

def fragments : Grouping → List Fragment
  | .none => []
  | .byPage => [⟨"page_path", []⟩]
  | .byDevice => [⟨"device_type", []⟩]
  | .byGoal =>
    ["variant_id", "goal_id", "goal_type"].map fun name => ⟨Filter.payloadText name, []⟩
  | .byVariant experiment =>
    [⟨"variant_ids[list_position(experiment_ids, ?)]", [Filter.textParam experiment]⟩]

/-- How many values name a group. -/
def width (g : Grouping) : Nat := g.fragments.length

def key (e : StoredEvent) : Grouping → List (Option String)
  | .none => []
  | .byPage => [e.pagePath]
  | .byDevice => [e.deviceType]
  | .byGoal => ["variant_id", "goal_id", "goal_type"].map e.payload?
  | .byVariant experiment => [e.variantIn? experiment]

end Grouping

end CohortAnalytics
