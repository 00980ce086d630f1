import CohortAnalytics.Cohort.Like
import CohortAnalytics.Cohort.Predicate
import CohortAnalytics.Time.Instant
import CohortAnalytics.Warehouse.Payload

/-!
Events as the warehouse holds them, and which of them a predicate selects. A column without a value
satisfies no condition.
-/

namespace CohortAnalytics

structure StoredEvent where
  id : String
  site : String
  session : String
  type : String
  timestamp : Instant
  pagePath : Option String
  referrer : Option String
  userAgent : Option String
  userLanguage : Option String
  deviceType : Option String
  viewportWidth : Option Int
  scrollDepth : Option Float
  loadTime : Option Float
  isDeadClick : Option Bool
  experimentIds : List (Option String)
  variantIds : List (Option String)
  data : Json

namespace TextColumn

def value? (e : StoredEvent) : TextColumn → Option String
  | .deviceType => e.deviceType
  | .userLanguage => e.userLanguage
  | .referrer => e.referrer
  | .userAgent => e.userAgent
  | .pagePath => e.pagePath

end TextColumn

namespace NumberColumn

def value? (e : StoredEvent) : NumberColumn → Option Number
  | .scrollDepth => e.scrollDepth.map .float
  | .loadTime => e.loadTime.map .float
  | .viewportWidth => e.viewportWidth.map .int

end NumberColumn

namespace NumberTest

/-- What is not a number is above every number. -/
def isAbove (n : Number) (x : Float) : Bool :=
  match Number.order? n (.float x) with
  | some o => o == .gt
  | none => !x.isNaN

def holds (test : NumberTest) (n : Number) : Bool :=
  match test with
  | .equals x => n.eqv (.float x)
  | .above x => isAbove n x
  | .below x => n.lt (.float x)
  | .between low high => (isAbove n low || n.eqv (.float low)) && n.le (.float high)

end NumberTest

namespace Condition

def holds (c : Condition) (e : StoredEvent) : Bool :=
  match c with
  | .textIs column text => (column.value? e).any (· == text)
  | .textLike column pattern => (column.value? e).any (Like.matchesText pattern)
  | .number column test => (column.value? e).any test.holds
  | .deadClickIs value => e.isDeadClick.any (· == value)

end Condition

namespace Predicate

def holds (p : Predicate) (e : StoredEvent) : Bool := p.all (Condition.holds · e)

end Predicate

namespace StoredEvent

/-- The variant at the place where the experiment first appears. -/
def variantIn? (e : StoredEvent) (experiment : String) : Option String :=
  (e.experimentIds.findIdx? (· == some experiment)).bind fun i => (e.variantIds[i]?).join

def takesPartIn (e : StoredEvent) (experiment : String) : Bool :=
  e.experimentIds.contains (some experiment)

def payload? (e : StoredEvent) (name : String) : Option String := Payload.member? e.data name

end StoredEvent

end CohortAnalytics
