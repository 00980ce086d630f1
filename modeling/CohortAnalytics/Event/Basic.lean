import CohortAnalytics.Cohort.Rule
import CohortAnalytics.Event.Loose

/-!
Interaction events of tracked sites. Every event belongs to one site and one session; its payload is
free.
-/

namespace CohortAnalytics

inductive EventType
  | pageView
  | click
  | scroll
  | formInteraction
  | conversion
  | experimentGoal
  deriving DecidableEq

namespace EventType

def all : List EventType :=
  [.pageView, .click, .scroll, .formInteraction, .conversion, .experimentGoal]

def name : EventType → String
  | .pageView => "page_view"
  | .click => "click"
  | .scroll => "scroll"
  | .formInteraction => "form_interaction"
  | .conversion => "conversion"
  | .experimentGoal => "experiment_goal"

def ofName? (name : String) : Option EventType := all.find? (·.name == name)

end EventType

inductive DeviceType
  | desktop
  | mobile
  | tablet
  deriving DecidableEq

namespace DeviceType

def all : List DeviceType := [.desktop, .mobile, .tablet]

def name : DeviceType → String
  | .desktop => "desktop"
  | .mobile => "mobile"
  | .tablet => "tablet"

def ofName? (name : String) : Option DeviceType := all.find? (·.name == name)

end DeviceType

structure Event where
  id : String
  site : String
  session : String
  type : EventType
  timestamp : Stamp
  pagePath : String := ""
  referrer : String := ""
  userAgent : String := ""
  userLanguage : String := ""
  deviceType : DeviceType := .desktop
  viewportWidth : Int := 0
  scrollDepth : Float := 0.0
  loadTime : Float := 0.0
  isDeadClick : Bool := false
  /-- experiments of the session, and in step with them its variants -/
  experimentIds : List String := []
  variantIds : List String := []
  data : List (String × Json) := []

namespace Event

def textList : Json → Checked (List String)
  | .array items => Checked.items Json.asText items
  | _ => .wrong .notList

def ofMembers (m : List (String × Json)) : Checked Event :=
  let head := Checked.both (Json.required "event_id" Json.asText m)
    (Checked.both (Json.required "site_id" Json.asText m)
      (Checked.both (Json.required "session_id" Json.asText m)
        (Checked.both (Json.required "event_type" (Loose.listed EventType.ofName?) m)
          (Json.required "timestamp" Loose.moment m))))
  let visitor := Checked.both (Json.optional "page_path" "" Json.asText m)
    (Checked.both (Json.optional "referrer" "" Json.asText m)
      (Checked.both (Json.optional "user_agent" "" Json.asText m)
        (Checked.both (Json.optional "user_language" "" Json.asText m)
          (Json.optional "device_type" DeviceType.desktop (Loose.listed DeviceType.ofName?) m))))
  let measured := Checked.both (Json.optional "viewport_width" 0 Loose.integer m)
    (Checked.both (Json.optional "scroll_depth" 0.0 Loose.real m)
      (Checked.both (Json.optional "load_time" 0.0 Loose.real m)
        (Json.optional "is_dead_click" false Loose.truth m)))
  let tail := Checked.both (Json.optional "experiment_ids" [] textList m)
    (Checked.both (Json.optional "variant_ids" [] textList m)
      (Json.optional "data" [] Loose.asObject m))
  (Checked.both head (Checked.both visitor (Checked.both measured tail))).map
    fun ((id, site, session, type, timestamp), (pagePath, referrer, userAgent, userLanguage,
      deviceType), (viewportWidth, scrollDepth, loadTime, isDeadClick), experimentIds, variantIds,
      data) =>
    { id, site, session, type, timestamp, pagePath, referrer, userAgent, userLanguage, deviceType,
      viewportWidth, scrollDepth, loadTime, isDeadClick, experimentIds, variantIds, data }

def ofJson : Json → Checked Event
  | .object members => ofMembers members
  | _ => .wrong .notModel

def texts (ts : List String) : Json := .array (ts.map .text)

def members (e : Event) : List (String × Json) :=
  [("event_id", .text e.id), ("site_id", .text e.site), ("session_id", .text e.session),
    ("event_type", .text e.type.name), ("timestamp", .text e.timestamp.zuluText),
    ("page_path", .text e.pagePath), ("referrer", .text e.referrer),
    ("user_agent", .text e.userAgent), ("user_language", .text e.userLanguage),
    ("device_type", .text e.deviceType.name), ("viewport_width", .int e.viewportWidth),
    ("scroll_depth", .float e.scrollDepth), ("load_time", .float e.loadTime),
    ("is_dead_click", .bool e.isDeadClick), ("experiment_ids", texts e.experimentIds),
    ("variant_ids", texts e.variantIds), ("data", .object e.data)]

def toJson (e : Event) : Json := .object e.members

end Event

end CohortAnalytics
