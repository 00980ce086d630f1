import CohortAnalytics.Service.Serving

/-!
Everything that the dashboard of the demonstration site shows, as one document.
-/

namespace CohortAnalytics

def demoSite : String := checkoutExperiment.site

def demoRule (field operator value : String) : Rule :=
  { field, operator, value := .text value, value2 := none }

def demoCohorts : List Cohort := [
  ⟨"coh_mobile", demoSite, "Mobile visitors", [demoRule "device_type" "equals" "mobile"]⟩,
  ⟨"coh_search", demoSite, "Search referrals", [demoRule "referrer" "contains" "google"]⟩,
  ⟨"coh_frustrated", demoSite, "Rage clickers", [demoRule "has_rage_clicks" "equals" "true"]⟩]

def demoCatalog : Catalog := Catalog.make demoCohorts [checkoutExperiment]

structure Export where
  cohorts : List Report
  comparison : List Report
  experiments : List Report

namespace Export

def metricsRequests : List Request := demoCohorts.map fun c => .cohortMetrics demoSite c.id {}

def comparisonRequest : Request := .compareCohorts demoSite (demoCohorts.map Cohort.id) {}

def experimentsRequest : Request := .experimentsResults demoSite [checkoutExperiment.id] {} true

/-- Every request of the dashboard, up to the first that is refused. -/
def build {σ : Type} (service : Service) (store : Store σ) (s : Serving σ) :
    Except RequestError Export × Serving σ :=
  match s.respondAll service store metricsRequests with
  | (.error e, s) => (.error e, s)
  | (.ok cohorts, s) =>
    match s.respond service store comparisonRequest with
    | (.error e, s) => (.error e, s)
    | (.ok comparison, s) =>
      match s.respond service store experimentsRequest with
      | (.error e, s) => (.error e, s)
      | (.ok experiments, s) =>
        (.ok { cohorts := cohorts.flatten, comparison, experiments }, s)

/-- The rows of a comparison, which the document shows without their failure. -/
def rowsJson : List Report → Json
  | .comparison c :: _ => c.rowsJson
  | _ => .array []

def toJson (e : Export) : Json :=
  .object [("site_id", .text demoSite), ("cohorts", .array (e.cohorts.map Report.toJson)),
    ("comparison", rowsJson e.comparison), ("experiments", .array (e.experiments.map Report.toJson))]

end Export

end CohortAnalytics
