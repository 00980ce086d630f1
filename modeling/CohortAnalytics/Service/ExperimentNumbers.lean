import CohortAnalytics.Service.CohortNumbers
import CohortAnalytics.Statistics.SampleSize
import CohortAnalytics.Statistics.Verdict

/-!
The result of an experiment as a computation that asks the store: users, conversions and goals of
every variant, the test of each variant against the control, and the verdict.
-/

namespace CohortAnalytics

-- Sums start from the zero of core, whatever else is in scope.
attribute [local instance (high)] Zero.ofOfNat0

namespace ExperimentReport

/-- Configured variants first, in the order of their definition, then the others by name. -/
def variantOrder (e : Experiment) (counts : Entries AggregateRow) : List String :=
  let configured := e.variants.map Variant.id
  configured.filter (fun id => (counts.find? id).isSome) ++
    (counts.names.filter fun id => !configured.contains id).mergeSort fun a b => a ≤ b

/-- Revenue of zero counts as none. -/
def revenueOf (row : AggregateRow) : Except Failure (Option Float) :=
  match (row.get "total_revenue").toFloat? with
  | none => .error .beyondRange
  | some x => .ok (if x == 0 then none else some x)

/-- A revenue for each of a number of things; none of either gives none. -/
def revenuePer (revenue : Option Float) (count : Int) : Except Failure (Option Float) :=
  match revenue with
  | none => .ok none
  | some x =>
    if count = 0 then .ok none
    else match Binary.ofInt? count with
      | some n => .ok (some (x / n))
      | none => .error .beyondRange

def textOf : Json → Except Failure String
  | .text s => .ok s
  | _ => .error .wrongKind

/-- A row without a goal type takes that of the configured goal. -/
def goalTypeOf (goal : Option Goal) (type : Json) : Except Failure String :=
  if type.isNothing then .ok ((goal.map fun g => g.type.name).getD "") else textOf type

def goalStats (e : Experiment) (users : Int) (g : GoalRow) : Except Failure GoalStats := do
  let id ← textOf g.goal
  let goal := e.goal? id
  let counted ← g.row.whole "conversions"
  let conversions := min counted users
  let revenue ← revenueOf g.row
  return {
    goalId := id
    goalType := ← goalTypeOf goal g.type
    conversions
    rate := ← if users = 0 then pure 0.0 else quotient conversions users
    goalName := (goal.map Goal.name).getD id
    isPrimary := (goal.map Goal.isPrimary).getD false
    totalRevenue := revenue
    averageOrder := ← revenuePer revenue conversions
    revenuePerVisitor := ← revenuePer revenue users }

def isOfVariant (variant : String) (g : GoalRow) : Bool :=
  match g.variant with
  | .text s => s == variant
  | _ => false

def variantStats (e : Experiment) (counts : Entries AggregateRow) (goals : List GoalRow)
    (variant : String) : Except Failure VariantStats := do
  let row := (counts.find? variant).getD (AggregateRow.zero [])
  let users ← row.whole "users"
  let conversions ← row.whole "conversions"
  let goals ← (goals.filter (isOfVariant variant)).mapM (goalStats e users)
  match VariantStats.make variant users conversions (e.variantName variant) goals with
  | .ok v => return v
  | .error err => .error (.invalid err.message)

/-- The control's rate, where it says anything. -/
def baselineRate (config : Config) (variants : List VariantStats) : Float :=
  match variants.head? with
  | some v => if 0 < v.users ∧ 0 < v.rate ∧ v.rate < 1 then v.rate else config.fallbackBaselineRate
  | none => config.fallbackBaselineRate

def sampleSizeFor (config : Config) (curve : NormalCurve) (variants : List VariantStats) :
    Except Failure (Option Int) :=
  match minimumSampleSize curve (.float (baselineRate config variants))
      (.float config.minimumDetectableEffect) with
  | .ok n => .ok n
  | .error .notANumber => .error .notANumber
  | .error .beyondRange => .error .beyondRange

/-- Whole days between two instants, by the nearest float to the seconds between them. -/
def daysBetween (start now : Instant) : Int :=
  match Binary.ofRatio? ((now.micros : Int) - start.micros) microsPerSecond with
  | none => 0
  | some seconds =>
    match Binary.ofFloat? seconds with
    | none => 0
    | some b => max 0 (b.signed / (b.denominator * 86400))

def daysSince (startedAt : Option Stamp) (now : Instant) : Except Failure Int :=
  match startedAt with
  | none => .ok 0
  | some s =>
    match s.universal? with
    | some start => .ok (daysBetween start now)
    | none => .error .beyondRange

def sumUsers (variants : List VariantStats) : Nat := (variants.map VariantStats.users).sum

/-- A size is enough once each of two variants can have it. -/
def hasEnough (size : Option Int) (users : Nat) : Bool :=
  match size with
  | some n => 2 * n ≤ users
  | none => false

/-- The result that counts by variant lead to. -/
def ofCounts (config : Config) (curve : NormalCurve) (now : Instant) (e : Experiment)
    (counts : Entries AggregateRow) (goals : List GoalRow) : Except Failure ExperimentReport := do
  let variants ← (variantOrder e counts).mapM (variantStats e counts goals)
  let analysis := Analysis.ofVariants curve variants
  let users := sumUsers variants
  let verdict := Verdict.decide (.float analysis.confidence) analysis.isSignificant analysis.winner
    (.int users)
  let size ← sampleSizeFor config curve variants
  let winnerName := (analysis.winner.filter (· ≠ "")).map e.variantName
  return {
    id := e.id
    name := e.name
    status := e.status
    startedAt := e.startedAt
    totalUsers := users
    variants
    isSignificant := analysis.isSignificant
    confidence := analysis.confidence
    winner := analysis.winner
    z := analysis.z
    lift := analysis.lift
    comparisons := analysis.comparisons
    statusMessage := verdict.name
    statusText := verdict.describe analysis.confidence winnerName
    daysRunning := ← daysSince e.startedAt now
    sampleSize := size
    hasEnoughData := hasEnough size users }

def compute (config : Config) (curve : NormalCurve) (now : Instant) (e : Experiment)
    (window : Window) (includeGoals : Bool) : Inquiry ExperimentReport := do
  let scope : Scope := { site := e.site, window, now }
  let counts ← variantCounts e.id e.goalEvent scope
  let goals ← if includeGoals then goalBreakdown e.id scope else pure []
  Inquiry.ofExcept (ofCounts config curve now e counts goals)

end ExperimentReport

end CohortAnalytics
