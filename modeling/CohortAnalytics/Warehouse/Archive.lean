import CohortAnalytics.Json.Reader
import CohortAnalytics.Json.Writer
import CohortAnalytics.Warehouse.Table

/-!
A warehouse as text: a line that says so, and its table as a list of rows, each as it would be
loaded. A warehouse without a table has the line alone.
-/

namespace CohortAnalytics

namespace StoredEvent

def optional {α : Type} (f : α → Json) : Option α → Json
  | some a => f a
  | none => .null

def members (e : StoredEvent) : LooseEvent :=
  [("event_id", .text e.id), ("site_id", .text e.site), ("session_id", .text e.session),
    ("event_type", .text e.type), ("timestamp", .text e.timestamp.isoText),
    ("page_path", optional .text e.pagePath), ("referrer", optional .text e.referrer),
    ("user_agent", optional .text e.userAgent), ("user_language", optional .text e.userLanguage),
    ("device_type", optional .text e.deviceType), ("viewport_width", optional .int e.viewportWidth),
    ("scroll_depth", optional .float e.scrollDepth), ("load_time", optional .float e.loadTime),
    ("is_dead_click", optional .bool e.isDeadClick),
    ("experiment_ids", .array (e.experimentIds.map (optional .text))),
    ("variant_ids", .array (e.variantIds.map (optional .text))), ("data", e.data)]

end StoredEvent

namespace Warehouse

def mark : List Char := "table of events\n".toList

def looseRow : Json → LooseEvent
  | .object members => members
  | _ => []

/-- A file with nothing in it is a warehouse without a table, too. -/
def archive : Option EventTable → String
  | none => String.ofList mark
  | some t => String.ofList (mark ++
      (Json.lines (.array (t.rows.map fun e => .object e.members))).toList)

def restoreTable? (rows : List Json) : Option EventTable :=
  match EventTable.insert {} (rows.map looseRow) with
  | (t, .ok _) => some t
  | (_, .error _) => none

/-- The warehouse of an archive, or none for a text that is no archive. -/
def restore? (text : String) : Option (Option EventTable) :=
  if text = "" then some none
  else if mark.isPrefixOf text.toList then
    match text.toList.drop mark.length with
    | [] => some none
    | rest =>
      match Json.read? (String.ofList rest) with
      | some (.array rows) => (restoreTable? rows).map some
      | _ => none
  else none

end Warehouse

end CohortAnalytics
