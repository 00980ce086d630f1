import CohortAnalytics.Number.Places
import CohortAnalytics.Statistics.Normal

/-!
The counts of one variant, and the pooled two-proportion test of one variant against a control.
-/

namespace CohortAnalytics

/-- Numbers of one goal for one variant. They describe and are not tested. -/
structure GoalStats where
  goalId : String
  goalType : String
  conversions : Int
  rate : Float
  goalName : String
  isPrimary : Bool
  totalRevenue : Option Float
  averageOrder : Option Float
  revenuePerVisitor : Option Float
  deriving DecidableEq

structure VariantStats where
  id : String
  users : Nat
  conversions : Nat
  name : String := ""
  goals : List GoalStats := []
  conversions_le : conversions ≤ users
  deriving DecidableEq

inductive CountsError
  | negative (variant : String)
  | moreConversions (variant : String) (conversions users : Int)
  deriving DecidableEq

namespace CountsError

def message : CountsError → String
  | .negative variant => "Variant " ++ variant ++ " has negative counts"
  | .moreConversions variant conversions users =>
    "Variant " ++ variant ++ " has more conversions (" ++ toString conversions ++
      ") than users (" ++ toString users ++ ")"

end CountsError

namespace VariantStats

def make (id : String) (users conversions : Int) (name : String := "")
    (goals : List GoalStats := []) : Except CountsError VariantStats :=
  if users < 0 ∨ conversions < 0 then .error (.negative id)
  else if h : conversions.toNat ≤ users.toNat then
    .ok ⟨id, users.toNat, conversions.toNat, name, goals, h⟩
  else .error (.moreConversions id conversions users)

def rate (v : VariantStats) : Float :=
  if v.users = 0 then 0.0 else Binary.ofQuotient false v.conversions v.users

end VariantStats

/-- The share of conversions among the users of both, and the spread of the difference of two
rates under it. -/
def standardError (control variant : VariantStats) : Float :=
  let pooled := Binary.ofQuotient false (control.conversions + variant.conversions)
    (control.users + variant.users)
  let spread := Binary.ofQuotient false 1 control.users + Binary.ofQuotient false 1 variant.users
  (pooled * (1 - pooled) * spread).sqrt

/-- Positive when the variant converts better; zero without users or without spread. -/
def zScore (control variant : VariantStats) : Float :=
  if control.users = 0 ∨ variant.users = 0 then 0.0
  else
    let error := standardError control variant
    if error == 0 then 0.0 else (variant.rate - control.rate) / error

/-- The two-tailed confidence of a statistic in percent. -/
def rawConfidence (curve : NormalCurve) (z : Float) : Float :=
  (2 * curve.cdf z.abs - 1) * 100

def confidence (curve : NormalCurve) (z : Float) : Float := roundPlaces 2 (rawConfidence curve z)

/-- The confidence in percent that a result needs. -/
def significanceThreshold : Float := 95.0

def reachesSignificance (curve : NormalCurve) (z : Float) : Bool :=
  significanceThreshold ≤ rawConfidence curve z

/-- The relative gain over the control in percent. Over a rate of zero any gain counts as 100. -/
def lift (control variant : VariantStats) : Float :=
  if control.rate == 0 then (if 0 < variant.rate then 100.0 else 0.0)
  else (variant.rate - control.rate) / control.rate * 100

/-- One variant tested against the control. Numbers are rounded for display; significance is
decided on the statistic before rounding. -/
structure Comparison where
  variant : String
  control : String
  z : Float
  confidence : Float
  lift : Float
  isSignificant : Bool
  deriving DecidableEq

def compareVariants (curve : NormalCurve) (control variant : VariantStats) : Comparison :=
  let z := zScore control variant
  { variant := variant.id
    control := control.id
    z := roundPlaces 3 z
    confidence := confidence curve z
    lift := roundPlaces 1 (lift control variant)
    isSignificant := reachesSignificance curve z }

end CohortAnalytics
