import CohortAnalytics.Number.Basic
import CohortAnalytics.Statistics.Analysis

/-!
The verdict that a result is shown with.
-/

namespace CohortAnalytics

inductive Verdict
  | notEnoughData
  | trending
  | winnerFound
  | noDifference
  deriving DecidableEq

namespace Verdict

/-- The confidence in percent from which a result counts as a trend. -/
def trendingThreshold : Number := .float 80.0

def all : List Verdict := [.notEnoughData, .trending, .winnerFound, .noDifference]

def name : Verdict → String
  | .notEnoughData => "not enough data"
  | .trending => "trending but not significant"
  | .winnerFound => "winner found"
  | .noDifference => "no meaningful difference"

def ofName? (name : String) : Option Verdict := all.find? (·.name == name)

def decide (confidence : Number) (isSignificant : Bool) (winner : Option String)
    (totalUsers : Number) : Verdict :=
  if totalUsers.lt (.int minimumObservations) then .notEnoughData
  else if isSignificant && winner.any (· ≠ "") then .winnerFound
  else if !isSignificant && trendingThreshold.le confidence then .trending
  else .noDifference

def describe (v : Verdict) (confidence : Float) (winner : Option String) : String :=
  match v with
  | .notEnoughData =>
    "Collecting data... Need at least " ++ toString minimumObservations ++ " visitors per variant."
  | .trending =>
    "Trending towards significance (" ++ fixedPlaces 0 confidence ++
      "% confidence). Continue test."
  | .winnerFound =>
    "Winner found! " ++ winner.getD "None" ++ " with " ++ fixedPlaces 0 confidence ++
      "% confidence."
  | .noDifference => "No significant difference detected yet. Continue running the test."

end Verdict

end CohortAnalytics
