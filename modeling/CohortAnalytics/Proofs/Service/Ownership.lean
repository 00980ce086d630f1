import CohortAnalytics.Proofs.Service.Failing

/-!
What a request is checked for before anything else is done: that it names something, and that all it
names is the site's. A request that reaches for what is not the site's is refused with everything
left as it was, however its window is given.
-/

namespace CohortAnalytics

namespace Request

def ids : Request → List String
  | .cohortMetrics _ cohort _ => [cohort]
  | .compareCohorts _ cohorts _ => cohorts
  | .experimentResults _ experiment _ _ => [experiment]
  | .experimentsResults _ experiments _ _ => experiments

def bounds : Request → TimeBounds
  | .cohortMetrics _ _ bounds => bounds
  | .compareCohorts _ _ bounds => bounds
  | .experimentResults _ _ bounds _ => bounds
  | .experimentsResults _ _ bounds _ => bounds

def isOfCohorts : Request → Bool
  | .cohortMetrics _ _ _ => true
  | .compareCohorts _ _ _ => true
  | _ => false

def noIds (r : Request) : RequestError := if r.isOfCohorts then .noCohorts else .noExperiments

def unnamed (r : Request) : RequestError :=
  if r.isOfCohorts then .cohortUnnamed else .experimentUnnamed

def notFound (r : Request) (id : String) : RequestError :=
  if r.isOfCohorts then .cohortNotFound id r.site else .experimentNotFound id r.site

/-- How many reports a request asks for: of each experiment one, however often it is named. -/
def reportCount : Request → Nat
  | .experimentsResults _ experiments _ _ => experiments.eraseDups.length
  | _ => 1

theorem isScopeViolation_noIds (r : Request) : r.noIds.isScopeViolation = false := by
  unfold noIds
  split_ifs <;> rfl

theorem isScopeViolation_unnamed (r : Request) : r.unnamed.isScopeViolation = false := by
  unfold unnamed
  split_ifs <;> rfl

theorem isScopeViolation_notFound (r : Request) (id : String) :
    (r.notFound id).isScopeViolation = true := by
  unfold notFound
  split_ifs <;> rfl

end Request

namespace Catalog

/-- The site of what the request calls by the id. -/
def owner? (catalog : Catalog) (r : Request) (id : String) : Option String :=
  if r.isOfCohorts then (catalog.cohorts.find? id).map Cohort.site
  else (catalog.experiments.find? id).map Experiment.site

/-- All that a request names is there and of its site. -/
structure Grants (catalog : Catalog) (r : Request) : Prop where
  named : r.ids ≠ []
  owned : ∀ id ∈ r.ids, (r.site ≠ "" ∧ id ≠ "") ∧ catalog.owner? r id = some r.site

/-- Why a request is refused, whatever its window. -/
inductive Refuses (catalog : Catalog) (r : Request) : RequestError → Prop
  | noIds (h : r.ids = []) : Refuses catalog r r.noIds
  | unnamed {id : String} (hid : id ∈ r.ids) (h : r.site = "" ∨ id = "") :
      Refuses catalog r r.unnamed
  | notFound {id : String} (hid : id ∈ r.ids) (hnamed : r.site ≠ "" ∧ id ≠ "")
      (h : catalog.owner? r id ≠ some r.site) : Refuses catalog r (r.notFound id)

variable {catalog : Catalog} {r : Request} {e : RequestError}

theorem Grants.site (h : catalog.Grants r) : r.site ≠ "" := by
  obtain ⟨id, hid⟩ := List.exists_mem_of_ne_nil _ h.named
  exact (h.owned id hid).1.1

theorem Grants.not_refuses (h : catalog.Grants r) : ¬catalog.Refuses r e := by
  intro hrefuses
  cases hrefuses with
  | noIds hids => exact h.named hids
  | unnamed hid hempty =>
    obtain ⟨⟨hsite, hne⟩, -⟩ := h.owned _ hid
    exact hempty.elim hsite hne
  | notFound hid _ howner => exact howner (h.owned _ hid).2

theorem owned_mapM_ok {α : Type} {find : String → Option α} {siteOf : α → String}
    {unnamed : RequestError} {notFound : String → RequestError} {site : String} {ids : List String}
    {as : List α} (h : ids.mapM (owned find siteOf unnamed notFound site) = .ok as) :
    (∀ id ∈ ids, (site ≠ "" ∧ id ≠ "") ∧ (find id).map siteOf = some site) ∧
      ∀ a ∈ as, siteOf a = site := by
  constructor
  · intro id hid
    obtain ⟨a, ha⟩ := mapM_ok_all h hid
    obtain ⟨hnamed, hfind, hsite⟩ := owned_ok ha
    exact ⟨hnamed, by rw [hfind, Option.map_some, hsite]⟩
  · intro a ha
    obtain ⟨id, -, hid⟩ := mapM_ok_mem h ha
    exact (owned_ok hid).2.2

theorem refuses_of_owned {α : Type} {find : String → Option α} {siteOf : α → String} {id : String}
    (hid : id ∈ r.ids) (howner : catalog.owner? r id = (find id).map siteOf)
    (h : owned find siteOf r.unnamed r.notFound r.site id = .error e) : catalog.Refuses r e := by
  rcases owned_error h with ⟨hempty, rfl⟩ | ⟨hnamed, hne, rfl⟩
  · exact .unnamed hid hempty
  · exact .notFound hid hnamed (howner ▸ hne)

end Catalog

namespace Service

/-- The checks of a request that come before its window is read. -/
def checked (s : Service) : Request → Except RequestError (Window → List Subject)
  | .cohortMetrics site cohort _ => do
    let c ← s.catalog.scopedCohort site cohort
    return fun w => [.metrics c w]
  | .compareCohorts site cohorts _ => do
    if cohorts.isEmpty then .error .noCohorts
    let cs ← (sortedIds cohorts).mapM (s.catalog.scopedCohort site)
    return fun w => [.comparison site cs w]
  | .experimentResults site experiment _ includeGoals => do
    let e ← s.catalog.scopedExperiment site experiment
    return fun w => [.experiment e w includeGoals]
  | .experimentsResults site experiments _ includeGoals => do
    if experiments.isEmpty then .error .noExperiments
    let es ← experiments.eraseDups.mapM (s.catalog.scopedExperiment site)
    return fun w => es.map fun e => .experiment e w includeGoals

theorem subjects_eq (s : Service) (r : Request) :
    s.subjects r = (do
      let f ← s.checked r
      return f (← s.windowOf r.bounds)) := by
  cases r with
  | cohortMetrics site cohort bounds => simp [subjects, checked, Request.bounds]
  | compareCohorts site cohorts bounds =>
    cases cohorts with
    | nil => rfl
    | cons id ids => simp [subjects, checked, Request.bounds]
  | experimentResults site experiment bounds includeGoals =>
    simp [subjects, checked, Request.bounds]
  | experimentsResults site experiments bounds includeGoals =>
    cases experiments with
    | nil => rfl
    | cons id ids => simp [subjects, checked, Request.bounds]

theorem mem_sortedIds {ids : List String} {id : String} : id ∈ sortedIds ids ↔ id ∈ ids := by
  rw [sortedIds, List.mem_mergeSort, List.mem_eraseDups]

variable {s : Service} {r : Request} {e : RequestError}

theorem checked_ok {f : Window → List Subject} (h : s.checked r = .ok f) :
    s.catalog.Grants r ∧ ∀ w, (f w).length = r.reportCount ∧ ∀ x ∈ f w, x.site = r.site := by
  cases r with
  | cohortMetrics site cohort bounds =>
    obtain ⟨c, hc, h⟩ := bind_ok h
    obtain rfl : (fun w => [.metrics c w]) = f := Except.ok.inj h
    rw [Catalog.scopedCohort_eq] at hc
    obtain ⟨hnamed, hfind, hsite⟩ := Catalog.owned_ok hc
    have howner : (s.catalog.cohorts.find? cohort).map Cohort.site = some site := by
      rw [hfind, Option.map_some, hsite]
    exact ⟨⟨List.cons_ne_nil _ _, List.forall_mem_singleton.mpr ⟨hnamed, howner⟩⟩,
      fun w => ⟨rfl, List.forall_mem_singleton.mpr hsite⟩⟩
  | compareCohorts site cohorts bounds =>
    cases cohorts with
    | nil => cases h
    | cons id ids =>
      obtain ⟨cs, hcs, h⟩ := bind_ok h
      obtain rfl : (fun w => [.comparison site cs w]) = f := Except.ok.inj h
      rw [Catalog.scopedCohort_eq] at hcs
      obtain ⟨howned, -⟩ := Catalog.owned_mapM_ok hcs
      exact ⟨⟨List.cons_ne_nil _ _, fun id hid => howned id (mem_sortedIds.mpr hid)⟩,
        fun w => ⟨rfl, List.forall_mem_singleton.mpr rfl⟩⟩
  | experimentResults site experiment bounds includeGoals =>
    obtain ⟨e, he, h⟩ := bind_ok h
    obtain rfl : (fun w => [.experiment e w includeGoals]) = f := Except.ok.inj h
    rw [Catalog.scopedExperiment_eq] at he
    obtain ⟨hnamed, hfind, hsite⟩ := Catalog.owned_ok he
    have howner : (s.catalog.experiments.find? experiment).map Experiment.site = some site := by
      rw [hfind, Option.map_some, hsite]
    exact ⟨⟨List.cons_ne_nil _ _, List.forall_mem_singleton.mpr ⟨hnamed, howner⟩⟩,
      fun w => ⟨rfl, List.forall_mem_singleton.mpr hsite⟩⟩
  | experimentsResults site experiments bounds includeGoals =>
    cases experiments with
    | nil => cases h
    | cons id ids =>
      obtain ⟨es, hes, h⟩ := bind_ok h
      obtain rfl : (fun w => es.map fun e => .experiment e w includeGoals) = f := Except.ok.inj h
      rw [Catalog.scopedExperiment_eq] at hes
      have hlength := (mapM_ok hes).length_eq.symm
      obtain ⟨howned, hsite⟩ := Catalog.owned_mapM_ok hes
      exact ⟨⟨List.cons_ne_nil _ _, fun id hid => howned id (List.mem_eraseDups.mpr hid)⟩,
        fun w => ⟨(List.length_map _).trans hlength, List.forall_mem_map.mpr hsite⟩⟩

theorem checked_error (h : s.checked r = .error e) : s.catalog.Refuses r e := by
  cases r with
  | cohortMetrics site cohort bounds =>
    rcases bind_error_iff.mp h with h | ⟨c, -, h⟩
    · rw [Catalog.scopedCohort_eq] at h
      exact Catalog.refuses_of_owned (List.mem_singleton_self cohort) rfl h
    · cases h
  | compareCohorts site cohorts bounds =>
    cases cohorts with
    | nil =>
      obtain rfl := Except.error.inj h
      exact .noIds rfl
    | cons id ids =>
      rcases bind_error_iff.mp h with h | ⟨cs, -, h⟩
      · obtain ⟨other, hother, h⟩ := mapM_error h
        rw [Catalog.scopedCohort_eq] at h
        exact Catalog.refuses_of_owned (mem_sortedIds.mp hother) rfl h
      · cases h
  | experimentResults site experiment bounds includeGoals =>
    rcases bind_error_iff.mp h with h | ⟨e, -, h⟩
    · rw [Catalog.scopedExperiment_eq] at h
      exact Catalog.refuses_of_owned (List.mem_singleton_self experiment) rfl h
    · cases h
  | experimentsResults site experiments bounds includeGoals =>
    cases experiments with
    | nil =>
      obtain rfl := Except.error.inj h
      exact .noIds rfl
    | cons id ids =>
      rcases bind_error_iff.mp h with h | ⟨es, -, h⟩
      · obtain ⟨other, hother, h⟩ := mapM_error h
        rw [Catalog.scopedExperiment_eq] at h
        exact Catalog.refuses_of_owned (List.mem_eraseDups.mp hother) rfl h
      · cases h

theorem checked_of_tasks {ts : List ReportTask} (h : s.tasks r = .ok ts) :
    ∃ f w, s.checked r = .ok f ∧ s.windowOf r.bounds = .ok w ∧ s.subjects r = .ok (f w) := by
  rw [tasks_eq] at h
  obtain ⟨xs, hxs, -⟩ := bind_ok h
  rw [subjects_eq] at hxs ⊢
  obtain ⟨f, hf, hxs⟩ := bind_ok hxs
  obtain ⟨w, hw, hxs⟩ := bind_ok hxs
  exact ⟨f, w, hf, hw, by rw [hf, hw]; rfl⟩

theorem tasks_error (h : s.tasks r = .error e) :
    s.catalog.Refuses r e ∨ s.catalog.Grants r ∧ s.windowOf r.bounds = .error e := by
  rw [tasks_eq, subjects_eq] at h
  rcases bind_error_iff.mp h with h | ⟨xs, hxs, h⟩
  · rcases bind_error_iff.mp h with h | ⟨f, hf, h⟩
    · exact .inl (checked_error h)
    · rcases bind_error_iff.mp h with h | ⟨w, -, h⟩
      · exact .inr ⟨(checked_ok hf).1, h⟩
      · cases h
  · obtain ⟨f, hf, hxs⟩ := bind_ok hxs
    obtain ⟨w, -, hxs⟩ := bind_ok hxs
    obtain rfl : f w = xs := Except.ok.inj hxs
    obtain ⟨hgrants, hshape⟩ := checked_ok hf
    obtain ⟨x, hx, he⟩ := mapM_error h
    have hne : x.site ≠ "" := by
      rw [(hshape w).2 x hx]
      exact hgrants.site
    obtain ⟨t, ht⟩ := Subject.task_ok s hne
    rw [ht] at he
    cases he

theorem tasks_of_unowned {id : String} (hid : id ∈ r.ids)
    (hnamed : r.site ≠ "" ∧ ∀ id ∈ r.ids, id ≠ "") (howner : s.catalog.owner? r id ≠ some r.site) :
    ∃ other ∈ r.ids, s.catalog.owner? r other ≠ some r.site ∧
      s.tasks r = .error (r.notFound other) := by
  have hgrants : ¬s.catalog.Grants r := fun h => howner (h.owned id hid).2
  cases htasks : s.tasks r with
  | ok ts =>
    obtain ⟨f, -, hf, -, -⟩ := checked_of_tasks htasks
    exact absurd (checked_ok hf).1 hgrants
  | error e =>
    rcases tasks_error htasks with hrefuses | ⟨h, -⟩
    · cases hrefuses with
      | noIds hids =>
        rw [hids] at hid
        cases hid
      | unnamed hother hempty => exact absurd hempty (not_or.mpr ⟨hnamed.1, hnamed.2 _ hother⟩)
      | notFound hother _ howner => exact ⟨_, hother, howner, rfl⟩
    · exact absurd h hgrants

end Service

namespace Serving

variable {σ : Type}

/-- A request that reaches for what is not its site's is refused as such, at whatever place and
whatever else is wrong with it, and leaves the cache, the store and its queries as they were. No
other request is refused so. -/
theorem refuses_unowned_untouched (service : Service) (store : Store σ) (r : Request)
    (s : Serving σ) (hsite : r.site ≠ "") (hids : ∀ id ∈ r.ids, id ≠ "") :
    ((∃ id ∈ r.ids, service.catalog.owner? r id ≠ some r.site) →
        ∃ id ∈ r.ids, service.catalog.owner? r id ≠ some r.site ∧
          (r.notFound id).isScopeViolation = true ∧
            s.respond service store r = (.error (r.notFound id), s)) ∧
      ((∀ id ∈ r.ids, service.catalog.owner? r id = some r.site) →
        ∀ e, (s.respond service store r).1 = .error e → e.isScopeViolation = false) := by
  constructor
  · rintro ⟨id, hid, howner⟩
    obtain ⟨other, hother, hunowned, htasks⟩ :=
      Service.tasks_of_unowned hid ⟨hsite, hids⟩ howner
    exact ⟨other, hother, hunowned, r.isScopeViolation_notFound other, respond_of_error htasks store s⟩
  · intro hall e he
    rcases Service.tasks_error (tasks_of_respond_error he) with hrefuses | ⟨-, hwindow⟩
    · cases hrefuses with
      | noIds _ => exact r.isScopeViolation_noIds
      | unnamed _ _ => exact r.isScopeViolation_unnamed
      | notFound hid _ howner => exact absurd (hall _ hid) howner
    · obtain ⟨w, -, rfl⟩ := mapError_error hwindow
      rfl

/-- The cohort that is asked for first, last and once more in between is another site's, and the
window cannot be read. -/
theorem refuses_unowned_untouched_between :
    let service : Service :=
      { catalog := Catalog.make [⟨"a", "shop", "All", []⟩, ⟨"b", "blog", "All", []⟩] []
        now := default }
    let r : Request := .compareCohorts "shop" ["b", "a", "b"] { start := some (.text "yesterday") }
    let s : Serving (Option EventTable) :=
      { cache := { limits := ⟨2, .int 60, by decide⟩, now := .int 0 }, store := some {} }
    r.site ≠ "" ∧ (∀ id ∈ r.ids, id ≠ "") ∧ service.catalog.owner? r "b" = some "blog" ∧
      s.respond service Store.warehouse r = (.error (.cohortNotFound "b" "shop"), s) := by
  intro service r s
  have hsite : r.site ≠ "" := by decide
  have hids : ∀ id ∈ r.ids, id ≠ "" := by decide
  have hb : service.catalog.owner? r "b" = some "blog" := rfl
  obtain ⟨hrefused, -⟩ := refuses_unowned_untouched service Store.warehouse r s hsite hids
  obtain ⟨id, hid, howner, -, hrespond⟩ := hrefused ⟨"b", by decide, by decide⟩
  obtain rfl : id = "b" := by
    rcases List.mem_cons.mp hid with rfl | hid
    · rfl
    rcases List.mem_cons.mp hid with rfl | hid
    · exact absurd rfl howner
    · exact List.mem_singleton.mp hid
  exact ⟨hsite, hids, hb, hrespond⟩

end Serving

end CohortAnalytics
