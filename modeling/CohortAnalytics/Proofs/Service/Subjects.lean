import CohortAnalytics.Service.Request
import CohortAnalytics.Proofs.Entries
import CohortAnalytics.Proofs.Results
import CohortAnalytics.Proofs.Time.Conversion
import CohortAnalytics.Proofs.Time.Written

/-!
What the tasks of a request are about: definitions of the catalogue that belong to the site that
asks, and a window.
-/

namespace CohortAnalytics

/-- What an answer is about: a cohort, a comparison of cohorts or an experiment, in a window. -/
inductive Subject
  | metrics (c : Cohort) (w : Window)
  | comparison (site : String) (cs : List Cohort) (w : Window)
  | experiment (e : Experiment) (w : Window) (includeGoals : Bool)

namespace Subject

def site : Subject → String
  | .metrics c _ => c.site
  | .comparison site _ _ => site
  | .experiment e _ _ => e.site

def window : Subject → Window
  | .metrics _ w => w
  | .comparison _ _ w => w
  | .experiment _ w _ => w

def kind : Subject → String
  | .metrics _ _ => "cohort-metrics"
  | .comparison _ _ _ => "cohort-comparison"
  | .experiment _ _ _ => "experiment-results"

def task (s : Service) : Subject → Except RequestError ReportTask
  | .metrics c w => s.metricsTask c w
  | .comparison site cs w => s.comparisonTask site cs w
  | .experiment e w includeGoals => s.experimentTask e w includeGoals

def hashes (cs : List Cohort) : Json :=
  .object (Entries.ofList (cs.map fun c => (c.id, .text c.rulesHash)))

/-- The parameters of the key that do not come from the window. -/
def params (config : Config) : Subject → List (String × Json)
  | .metrics c _ => [("cohort_id", .text c.id), ("rules", .text c.rulesHash),
      ("top_pages", .int config.topPagesLimit)]
  | .comparison _ cs _ => [("cohorts", hashes cs)]
  | .experiment e _ includeGoals => [("experiment_id", .text e.id), ("version", .int e.version),
      ("goals", .bool includeGoals)]

def inquiry (s : Service) : Subject → Inquiry Report
  | .metrics c w => do return .cohort (← CohortReport.compute s.config s.now c w)
  | .comparison site cs w => do return .comparison (← CohortComparison.compute s.now site cs w)
  | .experiment e w includeGoals => do
    return .experiment (← ExperimentReport.compute s.config s.curve s.now e w includeGoals)

def failed : Subject → Report
  | .metrics c _ => .cohort (.failed c)
  | .comparison _ _ _ => .comparison { queryFailed := true }
  | .experiment e _ _ => .experiment (.failed e)

def ttl (config : Config) : Subject → Float
  | .metrics _ _ => config.cohortTtl
  | .comparison _ _ _ => config.cohortTtl
  | .experiment _ _ _ => config.resultsTtl

theorem task_eq (s : Service) (x : Subject) :
    x.task s = (do
      let key ← Service.keyOf x.site x.kind (x.params s.config) x.window
      return ⟨key, x.ttl s.config, x.inquiry s, x.failed⟩) := by
  cases x <;> rfl

theorem task_inv {s : Service} {x : Subject} {t : ReportTask} (h : x.task s = .ok t) :
    ∃ key, Service.keyOf x.site x.kind (x.params s.config) x.window = .ok key ∧
      t = ⟨key, x.ttl s.config, x.inquiry s, x.failed⟩ := by
  rw [task_eq] at h
  obtain ⟨key, hkey, h⟩ := bind_ok h
  exact ⟨key, hkey, (Except.ok.inj h).symm⟩

end Subject

namespace Request

def site : Request → String
  | .cohortMetrics site _ _ => site
  | .compareCohorts site _ _ => site
  | .experimentResults site _ _ _ => site
  | .experimentsResults site _ _ _ => site

end Request

namespace Service

def subjects (s : Service) : Request → Except RequestError (List Subject)
  | .cohortMetrics site cohort bounds => do
    let c ← s.catalog.scopedCohort site cohort
    return [.metrics c (← s.windowOf bounds)]
  | .compareCohorts site cohorts bounds => do
    if cohorts.isEmpty then .error .noCohorts
    let cs ← (sortedIds cohorts).mapM (s.catalog.scopedCohort site)
    return [.comparison site cs (← s.windowOf bounds)]
  | .experimentResults site experiment bounds includeGoals => do
    let e ← s.catalog.scopedExperiment site experiment
    return [.experiment e (← s.windowOf bounds) includeGoals]
  | .experimentsResults site experiments bounds includeGoals => do
    if experiments.isEmpty then .error .noExperiments
    let es ← experiments.eraseDups.mapM (s.catalog.scopedExperiment site)
    let w ← s.windowOf bounds
    return es.map fun e => .experiment e w includeGoals

theorem tasks_eq (s : Service) (r : Request) :
    s.tasks r = s.subjects r >>= fun xs => xs.mapM (Subject.task s) := by
  cases r with
  | cohortMetrics site cohort bounds => simp [tasks, subjects, Subject.task]
  | compareCohorts site cohorts bounds =>
    cases cohorts with
    | nil => rfl
    | cons c cs => simp [tasks, subjects, Subject.task]
  | experimentResults site experiment bounds includeGoals =>
    simp [tasks, subjects, Subject.task]
  | experimentsResults site experiments bounds includeGoals =>
    cases experiments with
    | nil => rfl
    | cons e es => simp [tasks, subjects, Subject.task, Function.comp_def]

end Service

namespace Catalog

/-- Cohorts and experiments are found under their own ids. -/
structure IsKeyed (catalog : Catalog) : Prop where
  cohorts : catalog.cohorts.KeyedBy Cohort.id
  experiments : catalog.experiments.KeyedBy Experiment.id

theorem isKeyed_make (cohorts : List Cohort) (experiments : List Experiment) :
    (make cohorts experiments).IsKeyed := by
  have hcohorts (catalog : Catalog) (h : catalog.IsKeyed) :
      (cohorts.foldl (fun catalog c => catalog.addCohort c) catalog).IsKeyed := by
    induction cohorts generalizing catalog with
    | nil => exact h
    | cons c rest ih => exact ih _ ⟨h.cohorts.put c, h.experiments⟩
  have hexperiments (catalog : Catalog) (h : catalog.IsKeyed) :
      (experiments.foldl (fun catalog e => catalog.addExperiment e) catalog).IsKeyed := by
    induction experiments generalizing catalog with
    | nil => exact h
    | cons e rest ih => exact ih _ ⟨h.cohorts, h.experiments.put e⟩
  apply hexperiments
  apply hcohorts
  exact ⟨Entries.keyedBy_nil _, Entries.keyedBy_nil _⟩

section Owned

variable {α : Type} {find : String → Option α} {siteOf : α → String} {unnamed : RequestError}
  {notFound : String → RequestError} {site id : String} {a : α} {e : RequestError}

/-- What is found under an id, if it is the site's. -/
def owned (find : String → Option α) (siteOf : α → String) (unnamed : RequestError)
    (notFound : String → RequestError) (site id : String) : Except RequestError α :=
  if site = "" ∨ id = "" then .error unnamed
  else match find id with
    | some a => if siteOf a = site then .ok a else .error (notFound id)
    | none => .error (notFound id)

theorem owned_ok (h : owned find siteOf unnamed notFound site id = .ok a) :
    (site ≠ "" ∧ id ≠ "") ∧ find id = some a ∧ siteOf a = site := by
  unfold owned at h
  split_ifs at h with hempty
  rw [not_or] at hempty
  cases hfind : find id with
  | none =>
    rw [hfind] at h
    cases h
  | some b =>
    rw [hfind] at h
    dsimp only at h
    split_ifs at h with hsite
    obtain rfl : b = a := Except.ok.inj h
    exact ⟨hempty, rfl, hsite⟩

theorem owned_error (h : owned find siteOf unnamed notFound site id = .error e) :
    (site = "" ∨ id = "") ∧ e = unnamed ∨
      (site ≠ "" ∧ id ≠ "") ∧ (find id).map siteOf ≠ some site ∧ e = notFound id := by
  unfold owned at h
  split_ifs at h with hempty
  · exact .inl ⟨hempty, (Except.error.inj h).symm⟩
  · rw [not_or] at hempty
    refine .inr ⟨hempty, ?_⟩
    cases hfind : find id with
    | none =>
      rw [hfind] at h
      exact ⟨by simp, (Except.error.inj h).symm⟩
    | some b =>
      rw [hfind] at h
      dsimp only at h
      split_ifs at h with hsite
      exact ⟨by simpa using hsite, (Except.error.inj h).symm⟩

end Owned

theorem scopedCohort_eq (catalog : Catalog) (site : String) :
    catalog.scopedCohort site = owned catalog.cohorts.find? Cohort.site .cohortUnnamed
      (.cohortNotFound · site) site := by
  funext id
  cases hfind : catalog.cohorts.find? id <;> simp [scopedCohort, owned, hfind]

theorem scopedExperiment_eq (catalog : Catalog) (site : String) :
    catalog.scopedExperiment site = owned catalog.experiments.find? Experiment.site
      .experimentUnnamed (.experimentNotFound · site) site := by
  funext id
  cases hfind : catalog.experiments.find? id <;> simp [scopedExperiment, owned, hfind]

theorem scopedCohort_ok {catalog : Catalog} {site id : String} {c : Cohort}
    (h : catalog.scopedCohort site id = .ok c) :
    site ≠ "" ∧ catalog.cohorts.find? id = some c ∧ c.site = site := by
  rw [scopedCohort_eq] at h
  exact ⟨(owned_ok h).1.1, (owned_ok h).2⟩

theorem scopedExperiment_ok {catalog : Catalog} {site id : String} {e : Experiment}
    (h : catalog.scopedExperiment site id = .ok e) :
    site ≠ "" ∧ catalog.experiments.find? id = some e ∧ e.site = site := by
  rw [scopedExperiment_eq] at h
  exact ⟨(owned_ok h).1.1, (owned_ok h).2⟩

end Catalog

namespace Subject

/-- What the service knows of a subject that a site may ask about: its parts are in the catalogue,
in order of their ids where there are several. -/
def KnownTo (s : Service) (site : String) : Subject → Prop
  | .metrics c w => s.catalog.cohorts.find? c.id = some c ∧ c.site = site ∧
      w.days = s.config.defaultWindowDays
  | .comparison site' cs w => (∀ c ∈ cs, s.catalog.cohorts.find? c.id = some c) ∧
      (cs.map Cohort.id).Pairwise (· < ·) ∧ site' = site ∧ w.days = s.config.defaultWindowDays
  | .experiment e w _ => s.catalog.experiments.find? e.id = some e ∧ e.site = site ∧
      w.days = s.config.defaultWindowDays

theorem days_of_knownTo {s : Service} {site : String} {x : Subject} (h : x.KnownTo s site) :
    x.window.days = s.config.defaultWindowDays := by
  cases x with
  | metrics c w => exact h.2.2
  | comparison site' cs w => exact h.2.2.2
  | experiment e w includeGoals => exact h.2.2

theorem site_of_knownTo {s : Service} {site : String} {x : Subject} (h : x.KnownTo s site) :
    x.site = site := by
  cases x with
  | metrics c w => exact h.2.1
  | comparison site' cs w => exact h.2.2.1
  | experiment e w includeGoals => exact h.2.1

end Subject

theorem nodup_eraseDups {α : Type} [BEq α] [LawfulBEq α] (ids : List α) : ids.eraseDups.Nodup := by
  induction h : ids.length using Nat.strong_induction_on generalizing ids with
  | _ n ih =>
    cases ids with
    | nil => simp
    | cons id rest =>
      have hlt : (rest.filter fun other => !other == id).length < n := by
        rw [← h, List.length_cons]
        exact Nat.lt_succ_of_le (List.length_filter_le _ _)
      rw [List.eraseDups_cons, List.nodup_cons]
      exact ⟨by simp, ih _ hlt _ rfl⟩

theorem pairwise_mergeSort_of_nodup {ids : List String} (h : ids.Nodup) :
    (ids.mergeSort fun a b => a ≤ b).Pairwise (· < ·) := by
  have hsorted : (ids.mergeSort fun a b => a ≤ b).Pairwise fun a b => decide (a ≤ b) = true := by
    apply List.pairwise_mergeSort
    · intro a b c hab hbc
      simp only [decide_eq_true_eq] at *
      exact String.le_trans hab hbc
    · intro a b
      simpa using String.le_total a b
  refine (hsorted.and ((List.mergeSort_perm _ _).nodup_iff.mpr h)).imp ?_
  rintro a b ⟨hle, hne⟩
  exact lt_of_le_of_ne (of_decide_eq_true hle) hne

namespace Service

theorem sortedIds_pairwise (ids : List String) : (sortedIds ids).Pairwise (· < ·) :=
  pairwise_mergeSort_of_nodup (nodup_eraseDups ids)

theorem windowOf_days {s : Service} {b : TimeBounds} {w : Window} (h : s.windowOf b = .ok w) :
    w.days = s.config.defaultWindowDays := (Window.ofRequest_inv (mapError_ok h)).2.2

theorem scopedCohorts_ok {catalog : Catalog} (hkeyed : catalog.IsKeyed) {site : String}
    {ids : List String} {cs : List Cohort} (h : ids.mapM (catalog.scopedCohort site) = .ok cs) :
    cs.map Cohort.id = ids ∧ ∀ c ∈ cs, catalog.cohorts.find? c.id = some c := by
  have hall := mapM_ok h
  clear h
  induction hall with
  | nil => simp
  | cons hc _ ih =>
    obtain ⟨-, hfind, -⟩ := Catalog.scopedCohort_ok hc
    have hid := hkeyed.cohorts _ _ hfind
    obtain ⟨hids, hmem⟩ := ih
    exact ⟨by rw [List.map_cons, hid, hids], List.forall_mem_cons.mpr ⟨by rw [hid, hfind], hmem⟩⟩

/-- What a request is about, once all of it has been found. -/
inductive IsAbout (s : Service) : Request → List Subject → Prop
  | metrics {site id : String} {bounds : TimeBounds} {c : Cohort} {w : Window}
      (hc : s.catalog.scopedCohort site id = .ok c) (hw : s.windowOf bounds = .ok w) :
      IsAbout s (.cohortMetrics site id bounds) [.metrics c w]
  | comparison {site : String} {ids : List String} {bounds : TimeBounds} {cs : List Cohort}
      {w : Window} (hcs : (sortedIds ids).mapM (s.catalog.scopedCohort site) = .ok cs)
      (hw : s.windowOf bounds = .ok w) :
      IsAbout s (.compareCohorts site ids bounds) [.comparison site cs w]
  | experiment {site id : String} {bounds : TimeBounds} {includeGoals : Bool} {e : Experiment}
      {w : Window} (he : s.catalog.scopedExperiment site id = .ok e)
      (hw : s.windowOf bounds = .ok w) :
      IsAbout s (.experimentResults site id bounds includeGoals) [.experiment e w includeGoals]
  | experiments {site : String} {ids : List String} {bounds : TimeBounds} {includeGoals : Bool}
      {es : List Experiment} {w : Window}
      (hes : ids.eraseDups.mapM (s.catalog.scopedExperiment site) = .ok es)
      (hw : s.windowOf bounds = .ok w) :
      IsAbout s (.experimentsResults site ids bounds includeGoals)
        (es.map fun e => .experiment e w includeGoals)

theorem subjects_inv {s : Service} {r : Request} {xs : List Subject} (h : s.subjects r = .ok xs) :
    s.IsAbout r xs := by
  cases r with
  | cohortMetrics site cohort bounds =>
    obtain ⟨c, hc, h⟩ := bind_ok h
    obtain ⟨w, hw, h⟩ := bind_ok h
    obtain rfl := Except.ok.inj h
    exact .metrics hc hw
  | compareCohorts site cohorts bounds =>
    cases cohorts with
    | nil => cases h
    | cons id ids =>
      obtain ⟨cs, hcs, h⟩ := bind_ok h
      obtain ⟨w, hw, h⟩ := bind_ok h
      obtain rfl := Except.ok.inj h
      exact .comparison hcs hw
  | experimentResults site experiment bounds includeGoals =>
    obtain ⟨e, he, h⟩ := bind_ok h
    obtain ⟨w, hw, h⟩ := bind_ok h
    obtain rfl := Except.ok.inj h
    exact .experiment he hw
  | experimentsResults site experiments bounds includeGoals =>
    cases experiments with
    | nil => cases h
    | cons id ids =>
      obtain ⟨es, hes, h⟩ := bind_ok h
      obtain ⟨w, hw, h⟩ := bind_ok h
      obtain rfl := Except.ok.inj h
      exact .experiments hes hw

theorem subjects_knownTo {s : Service} (hs : s.catalog.IsKeyed) {r : Request} {xs : List Subject}
    (h : s.subjects r = .ok xs) : ∀ x ∈ xs, x.KnownTo s r.site := by
  cases subjects_inv h with
  | metrics hc hw =>
    obtain ⟨-, hfind, hsite⟩ := Catalog.scopedCohort_ok hc
    rw [List.forall_mem_singleton]
    exact ⟨by rw [hs.cohorts _ _ hfind, hfind], hsite, windowOf_days hw⟩
  | comparison hcs hw =>
    obtain ⟨hids, hfind⟩ := scopedCohorts_ok hs hcs
    rw [List.forall_mem_singleton]
    exact ⟨hfind, by rw [hids]; exact sortedIds_pairwise _, rfl, windowOf_days hw⟩
  | experiment he hw =>
    obtain ⟨-, hfind, hsite⟩ := Catalog.scopedExperiment_ok he
    rw [List.forall_mem_singleton]
    exact ⟨by rw [hs.experiments _ _ hfind, hfind], hsite, windowOf_days hw⟩
  | experiments hes hw =>
    rw [List.forall_mem_map]
    intro e he
    obtain ⟨id, -, hid⟩ := mapM_ok_mem hes he
    obtain ⟨-, hfind, hsite⟩ := Catalog.scopedExperiment_ok hid
    exact ⟨by rw [hs.experiments _ _ hfind, hfind], hsite, windowOf_days hw⟩

end Service

end CohortAnalytics
