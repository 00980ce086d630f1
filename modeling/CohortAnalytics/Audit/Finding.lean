import CohortAnalytics.Json.Access

/-!
What an audit of an exported document finds.
-/

namespace CohortAnalytics

inductive Finding
  | partMissing (name : String)
  | noCohorts
  | cohortFailed (cohort : Json)
  | metricsMissing (cohort : Json) (names : List String)
  | clickingAboveSessions (cohort : Json)
  | clickRateOutOfRange (cohort rate : Json)
  | rowCount (rows cohorts : Nat)
  | eventsBelowSessions (cohort : Json)
  | noExperiments
  | resultsMissing (experiment : Json) (names : List String)
  | experimentFailed (experiment : Json)
  | tooFewVariants (experiment : Json)
  | noUsers (experiment variant : Json)
  | conversionsAboveUsers (experiment variant : Json)
  | usersDoNotAddUp (experiment : Json)
  | confidenceOutOfRange (experiment confidence : Json)
  | unknownWinner (experiment winner : Json)
  | winnerNotSignificant (experiment : Json)
  | unknownStatus (experiment status : Json)

namespace Finding

def variantText (experiment variant : Json) : String :=
  "Experiment " ++ experiment.display ++ " variant " ++ variant.display

def message : Finding → String
  | .partMissing name => "Missing top-level key: " ++ name
  | .noCohorts => "cohorts is empty: no cohort metrics were exported"
  | .cohortFailed c => "Cohort " ++ c.display ++ " query failed"
  | .metricsMissing c names =>
    "Cohort " ++ c.display ++ " metrics missing fields: " ++ Json.namesText names
  | .clickingAboveSessions c => "Cohort " ++ c.display ++ " has more clicking sessions than sessions"
  | .clickRateOutOfRange c rate =>
    "Cohort " ++ c.display ++ " has invalid click rate: " ++ rate.display ++ "%"
  | .rowCount rows cohorts =>
    "Comparison has " ++ toString rows ++ " rows for " ++ toString cohorts ++ " cohorts"
  | .eventsBelowSessions c =>
    "Comparison row " ++ c.display ++ " has fewer events than sessions"
  | .noExperiments => "experiments is empty: no experiment data exported"
  | .resultsMissing e names =>
    "Experiment " ++ e.display ++ " missing fields: " ++ Json.namesText names
  | .experimentFailed e => "Experiment " ++ e.display ++ " query failed"
  | .tooFewVariants e => "Experiment " ++ e.display ++ " has fewer than 2 variants with data"
  | .noUsers e v => variantText e v ++ " has 0 users"
  | .conversionsAboveUsers e v => variantText e v ++ " has more conversions than users"
  | .usersDoNotAddUp e =>
    "Experiment " ++ e.display ++ " total_users does not match its variants"
  | .confidenceOutOfRange e confidence =>
    "Experiment " ++ e.display ++ " confidence out of range: " ++ confidence.display
  | .unknownWinner e winner =>
    "Experiment " ++ e.display ++ " winner " ++ winner.display ++ " is not one of its variants"
  | .winnerNotSignificant e => "Experiment " ++ e.display ++ " has a winner without significance"
  | .unknownStatus e status =>
    "Experiment " ++ e.display ++ " invalid status: " ++ status.display

end Finding

end CohortAnalytics
