import CohortAnalytics.Number.Basic
import CohortAnalytics.Text.Quoted
import CohortAnalytics.Time.Instant

/-!
Experiments of a site: variants with traffic weights, and the goals they aim to move.
-/

namespace CohortAnalytics

inductive ExperimentStatus
  | draft
  | running
  | paused
  | completed
  deriving DecidableEq

namespace ExperimentStatus

def all : List ExperimentStatus := [.draft, .running, .paused, .completed]

def name : ExperimentStatus → String
  | .draft => "draft"
  | .running => "running"
  | .paused => "paused"
  | .completed => "completed"

def ofName? (name : String) : Option ExperimentStatus := all.find? (·.name == name)

end ExperimentStatus

inductive GoalType
  | click
  | pageview
  | customEvent
  | revenue
  deriving DecidableEq

namespace GoalType

def all : List GoalType := [.click, .pageview, .customEvent, .revenue]

def name : GoalType → String
  | .click => "click"
  | .pageview => "pageview"
  | .customEvent => "custom_event"
  | .revenue => "revenue"

def ofName? (name : String) : Option GoalType := all.find? (·.name == name)

end GoalType

structure Variant where
  id : String
  name : String
  weight : Number
  deriving DecidableEq

structure Goal where
  id : String
  name : String
  type : GoalType := .customEvent
  isPrimary : Bool := false
  eventName : Option String := none
  deriving DecidableEq

structure Experiment where
  id : String
  site : String
  name : String
  variants : List Variant
  status : ExperimentStatus := .running
  goalEvent : String := "conversion"
  goals : List Goal := []
  traffic : Number := .int 100
  startedAt : Option Stamp := none
  version : Int := 1
  deriving DecidableEq

inductive ExperimentError
  | weightSum (total : Number)
  | tooFewVariants
  | repeatedVariant
  | trafficOutOfRange (traffic : Number)
  | repeatedGoal
  | beyondRange
  | unknownStatus (name : String)
  | unknownGoalType (name : String)
  deriving DecidableEq

namespace ExperimentError

def message : ExperimentError → String
  | .weightSum total => "Variant weights must sum to 1.0, got " ++ total.text
  | .tooFewVariants => "Experiment must have at least 2 variants"
  | .repeatedVariant => "Variant ids must be unique"
  | .trafficOutOfRange traffic => "traffic_percentage must be 0-100, got " ++ traffic.text
  | .repeatedGoal => "Goal ids must be unique"
  | .beyondRange => "int too large to convert to float"
  | .unknownStatus name => quotedText name ++ " is not a valid ExperimentStatus"
  | .unknownGoalType name => quotedText name ++ " is not a valid GoalType"

end ExperimentError

namespace Experiment

def weightTotal? (e : Experiment) : Option Number :=
  (e.variants.map Variant.weight).foldlM Number.add? (.int 0)

/-- How far a total of weights may lie from one. -/
def weightTolerance : Float := 0.001

def checkWeights (e : Experiment) : Except ExperimentError Unit :=
  match e.weightTotal? with
  | none => .error .beyondRange
  | some total =>
    match total.toFloat? with
    | none => .error .beyondRange
    | some x => if weightTolerance < (x - 1.0).abs then .error (.weightSum total) else .ok ()

def check (e : Experiment) : Except ExperimentError Unit := do
  e.checkWeights
  if e.variants.length < 2 then .error .tooFewVariants
  if ¬ (e.variants.map Variant.id).Nodup then .error .repeatedVariant
  if ¬ (Number.le (.int 0) e.traffic && Number.le e.traffic (.int 100)) then
    .error (.trafficOutOfRange e.traffic)
  if ¬ (e.goals.map Goal.id).Nodup then .error .repeatedGoal

def make (e : Experiment) : Except ExperimentError Experiment := do
  e.check
  return e

def Accepted (e : Experiment) : Prop := e.check = .ok ()

/-- A variant that is not configured goes by its id. -/
def variantName (e : Experiment) (id : String) : String :=
  ((e.variants.find? (·.id == id)).map Variant.name).getD id

def goal? (e : Experiment) (id : String) : Option Goal := e.goals.find? (·.id == id)

end Experiment

def checkoutExperiment : Experiment where
  id := "exp_checkout_cta_v1"
  site := "site_demo"
  name := "Checkout Button Copy"
  variants := [⟨"control", "Control", .float 0.5⟩, ⟨"variant_a", "Buy now", .float 0.5⟩]
  goalEvent := "checkout"
  goals := [
    { id := "goal_checkout", name := "Checkout", type := .revenue, isPrimary := true,
      eventName := some "checkout" },
    { id := "goal_cta_click", name := "CTA click", type := .click }]

end CohortAnalytics
