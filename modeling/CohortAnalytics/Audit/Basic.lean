import CohortAnalytics.Audit.Finding
import CohortAnalytics.Statistics.Verdict

/-!
The audit of an exported document: its parts are there, and its numbers fit together. A document
without findings passes; one that cannot be looked into fails the audit itself.
-/

namespace CohortAnalytics

namespace Audit

abbrev Findings := Except Failure (List Finding)

def partNames : List String := ["cohorts", "comparison", "experiments"]

def metricNames : List String :=
  ["click_rate", "sessions", "sessions_with_clicks", "total_clicks", "total_events",
    "total_scrolls"]

def resultNames : List String :=
  ["confidence_level", "has_enough_data", "is_significant", "minimum_sample_size", "query_failed",
    "status_message", "total_users", "winner_variant_id"]

def unknown : Json := .text "UNKNOWN"

def note (b : Bool) (f : Finding) : List Finding := if b then [f] else []

def each (check : Json → Findings) : List Json → Findings
  | [] => .ok []
  | j :: rest => do
    let found ← check j
    return found ++ (← each check rest)

def missingFrom (expected present : List String) : List String :=
  expected.filter fun n => !present.contains n

def parts (data : Json) : Findings :=
  partNames.foldrM (fun name found => do
    return note (!(← data.holds name)) (.partMissing name) ++ found) []

/-- Zero to a hundred, both included. -/
def isPercentage (rate : Json) : Except Failure Bool := do
  if ← (Json.int 0).isAtMost rate then rate.isAtMost (.int 100) else return false

def metrics (name m : Json) : Findings := do
  let tooMany ← (← m.member "sessions").isBelow (← m.member "sessions_with_clicks")
  let rate ← m.member "click_rate"
  return note tooMany (.clickingAboveSessions name) ++
    note (!(← isPercentage rate)) (.clickRateOutOfRange name rate)

def cohort (item : Json) : Findings := do
  let name ← (← item.memberOr "cohort" (.object [])).memberOr "id" unknown
  let failed := note (!(← item.memberOr "query_failed" .null).isNothing) (.cohortFailed name)
  let m ← item.memberOr "metrics" (.object [])
  let missing := missingFrom metricNames (← m.names)
  if missing.isEmpty then return failed ++ (← metrics name m)
  else return failed ++ [.metricsMissing name missing]

/-- A row with sessions has at least as many events. -/
def comparisonRow (row : Json) : Findings := do
  if ← (Json.int 0).isBelow (← row.member "sessions") then
    if ← (← row.member "events").isBelow (← row.member "sessions") then
      return [.eventsBelowSessions (← row.member "cohort_id")]
    else return []
  else return []

def variant (experiment v : Json) : Findings := do
  let empty ← if ← (← v.member "users").isAtMost (.int 0)
    then pure [Finding.noUsers experiment (← v.member "variant_id")] else pure []
  let above ← if ← (← v.member "users").isBelow (← v.member "conversions")
    then pure [Finding.conversionsAboveUsers experiment (← v.member "variant_id")] else pure []
  return empty ++ above

def isOutOfRange (confidence : Json) : Except Failure Bool := do
  if ← confidence.isBelow (.int 0) then return true else (Json.int 100).isBelow confidence

def variantId (v : Json) : Except Failure Json := do
  let id ← v.member "variant_id"
  if id.isSimple then return id else .error .wrongKind

/-- A winner is one of the variants, and only a significant result has one. -/
def winner (name e : Json) (variants : List Json) : Findings := do
  match ← e.member "winner_variant_id" with
  | .null => return []
  | w =>
    let known ← w.isAmong (← variants.mapM variantId)
    let significant := !(← e.member "is_significant").isNothing
    return note (!known) (.unknownWinner name w) ++
      note (!significant) (.winnerNotSignificant name)

def isVerdict (status : Json) : Bool :=
  Verdict.all.any fun v => Json.same status (.text v.name)

def results (name e : Json) : Findings := do
  let failed := note (!(← e.member "query_failed").isNothing) (.experimentFailed name)
  let given ← e.memberOr "variants" .null
  let given := if given.isNothing then Json.array [] else given
  let few := note ((← given.size) < 2) (.tooFewVariants name)
  let variants ← given.parts
  let counts ← each (variant name) variants
  let total ← Json.sum (← variants.mapM (Json.member "users"))
  let fits := Json.same (.number total) (← e.member "total_users")
  let confidence ← e.member "confidence_level"
  let range := note (← isOutOfRange confidence) (.confidenceOutOfRange name confidence)
  let won ← winner name e variants
  let status ← e.member "status_message"
  return failed ++ few ++ counts ++ note (!fits) (.usersDoNotAddUp name) ++ range ++ won ++
    note (!isVerdict status) (.unknownStatus name status)

def experiment (e : Json) : Findings := do
  let name ← e.memberOr "experiment_id" unknown
  let missing := missingFrom resultNames (← e.names)
  if missing.isEmpty then results name e else return [.resultsMissing name missing]

def body (data : Json) : Findings := do
  let cohorts ← data.member "cohorts"
  let inCohorts ← each cohort (← cohorts.parts)
  let comparison ← data.member "comparison"
  let rows ← comparison.size
  let count ← cohorts.size
  let inRows ← each comparisonRow (← comparison.parts)
  let experiments ← data.member "experiments"
  let inExperiments ← each experiment (← experiments.parts)
  return note cohorts.isNothing .noCohorts ++ inCohorts ++
    note (rows != count) (.rowCount rows count) ++ inRows ++
    note experiments.isNothing .noExperiments ++ inExperiments

end Audit

def audit (data : Json) : Except Failure (List Finding) := do
  let missing ← Audit.parts data
  if missing.isEmpty then Audit.body data else return missing

end CohortAnalytics
