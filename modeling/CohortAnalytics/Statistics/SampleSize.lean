import CohortAnalytics.Number.Basic
import CohortAnalytics.Statistics.Normal

/-!
Planning: how many users a variant needs to show a relative gain, and how many days that takes.
-/

namespace CohortAnalytics

/-- A size that is not a number, or beyond every number. -/
inductive SizeError
  | notANumber
  | beyondRange
  deriving DecidableEq

namespace SizeError

def message : SizeError → String
  | .notANumber => "cannot convert float NaN to integer"
  | .beyondRange => "cannot convert float infinity to integer"

end SizeError

def defaultConfidence : Number := .float 95.0

def defaultPower : Number := .float 0.8

def ceilSize (x : Float) : Except SizeError Int :=
  match ceilFloat? x with
  | some n => .ok n
  | none => .error (if x.isNaN then .notANumber else .beyondRange)

def realSize (n : Number) : Except SizeError Float :=
  match n.toFloat? with
  | some x => .ok x
  | none => .error .beyondRange

/-- The square of a finite number has to be finite. -/
def squareSize (x : Float) : Except SizeError Float :=
  if x.isFinite && (x * x).isInf then .error .beyondRange else .ok (x * x)

/-- Between the two numbers, neither included. -/
def isBetween (low n high : Number) : Bool := low.lt n && n.lt high

def sampleSize (curve : NormalCurve) (baseline effect confidence power : Float) :
    Except SizeError Int := do
  let alpha := 1 - confidence / 100
  let z := curve.quantile (1 - alpha / 2) + curve.quantile power
  let square ← squareSize (baseline * effect)
  ceilSize (z * z * 2 * baseline * (1 - baseline) / square)

/-- Users for each variant, by `(zₐ + z_b)² · 2 p (1 - p) / d²` with `d` the absolute gain; `none`
where the inputs leave the size undefined. -/
def minimumSampleSize (curve : NormalCurve) (baseline effect : Number)
    (confidence : Number := defaultConfidence) (power : Number := defaultPower) :
    Except SizeError (Option Int) := do
  if !isBetween (.int 0) baseline (.int 1) || effect.le (.int 0) then return none
  if !isBetween (.int 0) confidence (.int 100) || !isBetween (.int 0) power (.int 1) then
    return none
  return some (← sampleSize curve (← realSize baseline) (← realSize effect) (← realSize confidence)
    (← realSize power))

/-- The exact product over the number of visitors, rounded once where both are integers. -/
def daysFor (users : Int) (visitors : Number) : Except SizeError Float :=
  match visitors with
  | .int n =>
    match Binary.ofRatio? users n with
    | some x => .ok x
    | none => .error .beyondRange
  | .float x => do return (← realSize (.int users)) / x

def daysToSignificance (curve : NormalCurve) (visitors baseline effect : Number)
    (variants : Int := 2) (confidence : Number := defaultConfidence) :
    Except SizeError (Option Int) := do
  if visitors.le (.int 0) || variants < 2 then return none
  match ← minimumSampleSize curve baseline effect confidence with
  | none => return none
  | some users => return some (← ceilSize (← daysFor (users * variants) visitors))

end CohortAnalytics
