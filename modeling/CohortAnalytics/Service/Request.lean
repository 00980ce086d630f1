import CohortAnalytics.Cache.Key
import CohortAnalytics.Service.ExperimentNumbers

/-!
Requests to the service. A request is checked against the catalogue first: what it names has to
belong to the site that asks. It then becomes tasks, each a computation under a cache key.
-/

namespace CohortAnalytics

structure Catalog where
  cohorts : Entries Cohort := []
  experiments : Entries Experiment := []

namespace Catalog

def addCohort (c : Cohort) (catalog : Catalog) : Catalog :=
  { catalog with cohorts := catalog.cohorts.put c.id c }

def addExperiment (e : Experiment) (catalog : Catalog) : Catalog :=
  { catalog with experiments := catalog.experiments.put e.id e }

def make (cohorts : List Cohort) (experiments : List Experiment) : Catalog :=
  experiments.foldl (fun catalog e => catalog.addExperiment e)
    (cohorts.foldl (fun catalog c => catalog.addCohort c) {})

end Catalog

/-- The window of a request, each side open unless given. -/
structure TimeBounds where
  start : Option TimeInput := none
  finish : Option TimeInput := none

inductive Request
  | cohortMetrics (site cohort : String) (bounds : TimeBounds)
  | compareCohorts (site : String) (cohorts : List String) (bounds : TimeBounds)
  | experimentResults (site experiment : String) (bounds : TimeBounds) (includeGoals : Bool)
  | experimentsResults (site : String) (experiments : List String) (bounds : TimeBounds)
      (includeGoals : Bool)

inductive RequestError
  | noCohorts
  | noExperiments
  | cohortUnnamed
  | experimentUnnamed
  | siteUnnamed
  | cohortNotFound (cohort site : String)
  | experimentNotFound (experiment site : String)
  | window (e : WindowError)
  deriving DecidableEq

namespace RequestError

def message : RequestError → String
  | .noCohorts => "cohort_ids must not be empty"
  | .noExperiments => "experiment_ids must not be empty"
  | .cohortUnnamed => "site_id and cohort_id are required"
  | .experimentUnnamed => "site_id and experiment_id are required"
  | .siteUnnamed => emptySiteMessage
  | .cohortNotFound cohort site => "Cohort " ++ cohort ++ " not found for site " ++ site
  | .experimentNotFound experiment site =>
    "Experiment " ++ experiment ++ " not found for site " ++ site
  | .window e => e.message

/-- Whether the request reaches for what is not the site's. -/
def isScopeViolation : RequestError → Bool
  | .cohortNotFound _ _ => true
  | .experimentNotFound _ _ => true
  | _ => false

end RequestError

namespace Catalog

def scopedCohort (catalog : Catalog) (site cohort : String) : Except RequestError Cohort :=
  if site = "" ∨ cohort = "" then .error .cohortUnnamed
  else match catalog.cohorts.find? cohort with
    | some c => if c.site = site then .ok c else .error (.cohortNotFound cohort site)
    | none => .error (.cohortNotFound cohort site)

def scopedExperiment (catalog : Catalog) (site experiment : String) :
    Except RequestError Experiment :=
  if site = "" ∨ experiment = "" then .error .experimentUnnamed
  else match catalog.experiments.find? experiment with
    | some e => if e.site = site then .ok e else .error (.experimentNotFound experiment site)
    | none => .error (.experimentNotFound experiment site)

end Catalog

/-- A report under its cache key: how to compute it, how long to keep it, and what is shown when
the store cannot answer. -/
structure ReportTask where
  key : String
  ttl : Float
  compute : Inquiry Report
  failed : Report

structure Service where
  config : Config := {}
  curve : NormalCurve := standardNormal
  catalog : Catalog := {}
  now : Instant

namespace Service

def windowOf (s : Service) (b : TimeBounds) : Except RequestError Window :=
  (Window.ofRequest b.start b.finish s.config.defaultWindowDays).mapError .window

def keyOf (site kind : String) (params : List (String × Json)) (w : Window) :
    Except RequestError String :=
  match cacheKey? site kind (params ++ w.keyParts.map fun (n, v) => (n, .text v)) with
  | some key => .ok key
  | none => .error .siteUnnamed

def metricsTask (s : Service) (c : Cohort) (w : Window) : Except RequestError ReportTask := do
  let key ← keyOf c.site "cohort-metrics"
    [("cohort_id", .text c.id), ("rules", .text c.rulesHash),
      ("top_pages", .int s.config.topPagesLimit)] w
  return {
    key
    ttl := s.config.cohortTtl
    compute := do return .cohort (← CohortReport.compute s.config s.now c w)
    failed := .cohort (.failed c) }

def comparisonTask (s : Service) (site : String) (cohorts : List Cohort) (w : Window) :
    Except RequestError ReportTask := do
  let hashes := Entries.ofList (cohorts.map fun c => (c.id, Json.text c.rulesHash))
  let key ← keyOf site "cohort-comparison" [("cohorts", .object hashes)] w
  return {
    key
    ttl := s.config.cohortTtl
    compute := do return .comparison (← CohortComparison.compute s.now site cohorts w)
    failed := .comparison { queryFailed := true } }

def experimentTask (s : Service) (e : Experiment) (w : Window) (includeGoals : Bool) :
    Except RequestError ReportTask := do
  let key ← keyOf e.site "experiment-results"
    [("experiment_id", .text e.id), ("version", .int e.version), ("goals", .bool includeGoals)] w
  return {
    key
    ttl := s.config.resultsTtl
    compute := do
      return .experiment (← ExperimentReport.compute s.config s.curve s.now e w includeGoals)
    failed := .experiment (.failed e) }

/-- Each id once, in order. -/
def sortedIds (ids : List String) : List String := ids.eraseDups.mergeSort fun a b => a ≤ b

/-- The tasks of a request, in the order in which they are answered. Ids are checked before the
window is read. -/
def tasks (s : Service) : Request → Except RequestError (List ReportTask)
  | .cohortMetrics site cohort bounds => do
    let c ← s.catalog.scopedCohort site cohort
    return [← s.metricsTask c (← s.windowOf bounds)]
  | .compareCohorts site cohorts bounds => do
    if cohorts.isEmpty then .error .noCohorts
    let cs ← (sortedIds cohorts).mapM (s.catalog.scopedCohort site)
    return [← s.comparisonTask site cs (← s.windowOf bounds)]
  | .experimentResults site experiment bounds includeGoals => do
    let e ← s.catalog.scopedExperiment site experiment
    return [← s.experimentTask e (← s.windowOf bounds) includeGoals]
  | .experimentsResults site experiments bounds includeGoals => do
    if experiments.isEmpty then .error .noExperiments
    let es ← experiments.eraseDups.mapM (s.catalog.scopedExperiment site)
    let w ← s.windowOf bounds
    es.mapM fun e => s.experimentTask e w includeGoals

end Service

end CohortAnalytics
