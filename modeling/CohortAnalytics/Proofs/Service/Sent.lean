import CohortAnalytics.Proofs.Query.Sent
import CohortAnalytics.Proofs.Service.Subjects
import CohortAnalytics.Service.Serving

/-!
The texts that the service sends for a request are settled by the settings, the kind of the request
and the columns and operators of its cohorts' rules. Everything else travels as a parameter.
-/

namespace CohortAnalytics

open Inquiry

/-- The columns and operators that the rules of a cohort compile to. -/
def Cohort.outline? (c : Cohort) : Option Outline :=
  (Compiled.ofRules? (c.rules.map .checked)).map fun compiled => compiled.predicate.outline

/-- What may be known of a request from the texts that are sent for it. -/
inductive Profile
  | metrics (outline : Option Outline)
  | comparison (outlines : List (Option Outline))
  | results (includeGoals : Bool)
  deriving DecidableEq

namespace Profile

def comparisonShape : AggregateShape := { measures := [.sessions, .totalEvents, .totalClicks] }

def metricsShapes (config : Config) : List AggregateShape :=
  [{ measures := Measure.cohortSummary }, pagesShape (some config.topPagesLimit), devicesShape]

def resultsShapes (includeGoals : Bool) : List AggregateShape :=
  variantsShape "" "" :: if includeGoals then [goalsShape ""] else []

/-- The texts that are sent for one report. -/
def texts (config : Config) : Profile → List String
  | .metrics outline => (metricsShapes config).map fun shape => shape.textOver (outline.getD [])
  | .comparison outlines => outlines.map fun outline => comparisonShape.textOver (outline.getD [])
  | .results includeGoals => (resultsShapes includeGoals).map fun shape => shape.textOver []

end Profile

/-- A cohort that does not compile sends nothing. -/
theorem CohortReport.compiled_sends {α : Type} {c : Cohort} {f : Compiled → Inquiry α}
    {texts : List String}
    (hf : ∀ compiled, c.outline? = some compiled.predicate.outline → (f compiled).Sends texts) :
    (ofExcept (CohortReport.compiled c) >>= f).Sends texts := by
  unfold CohortReport.compiled
  cases hrules : Compiled.ofRules? (c.rules.map .checked) with
  | none => exact sends_error_bind _ _ _
  | some compiled =>
    have houtline : c.outline? = some compiled.predicate.outline := by
      rw [Cohort.outline?, hrules, Option.map_some]
    exact hf compiled houtline

theorem CohortReport.compute_sends (config : Config) (now : Instant) (c : Cohort) (w : Window) :
    (CohortReport.compute config now c w).Sends ((Profile.metrics c.outline?).texts config) := by
  apply CohortReport.compiled_sends
  intro compiled houtline
  rw [houtline]
  let scope : Scope := { site := c.site, window := w, now, predicate := compiled.predicate }
  apply sends_bind (summary_sends _ scope)
  intro totals
  apply sends_bind (topPages_sends _ scope)
  intro pages
  apply sends_before (deviceBreakdown_sends scope)
  intro devices
  exact sends_ofExcept _

theorem CohortComparison.computeRow_sends (now : Instant) (site : String) (w : Window)
    (c : Cohort) :
    (computeRow now site w c).Sends [Profile.comparisonShape.textOver (c.outline?.getD [])] := by
  apply CohortReport.compiled_sends
  intro compiled houtline
  rw [houtline]
  let scope : Scope := { site, window := w, now, predicate := compiled.predicate }
  apply sends_before (summary_sends _ scope)
  intro totals
  exact sends_ofExcept _

theorem CohortComparison.computeRows_sends (config : Config) (now : Instant) (site : String)
    (w : Window) (cs : List Cohort) : (computeRows now site w cs).Sends
      ((Profile.comparison (cs.map Cohort.outline?)).texts config) := by
  induction cs with
  | nil => exact sends_pure _
  | cons c rest ih =>
    apply sends_bind (computeRow_sends now site w c)
    intro row
    apply sends_before ih
    intro rows
    exact sends_pure _

theorem ExperimentReport.compute_sends (config : Config) (curve : NormalCurve) (now : Instant)
    (e : Experiment) (w : Window) (includeGoals : Bool) :
    (ExperimentReport.compute config curve now e w includeGoals).Sends
      ((Profile.results includeGoals).texts config) := by
  let scope : Scope := { site := e.site, window := w, now }
  apply sends_bind (variantCounts_sends _ _ scope)
  intro counts
  cases includeGoals with
  | true =>
    apply sends_before (goalBreakdown_sends _ scope)
    intro goals
    exact sends_ofExcept _
  | false =>
    apply sends_before (sends_pure _)
    intro goals
    exact sends_ofExcept _

def Subject.profile : Subject → Profile
  | .metrics c _ => .metrics c.outline?
  | .comparison _ cs _ => .comparison (cs.map Cohort.outline?)
  | .experiment _ _ includeGoals => .results includeGoals

theorem Subject.task_sends {s : Service} {x : Subject} {t : ReportTask} (h : x.task s = .ok t) :
    t.compute.Sends (x.profile.texts s.config) := by
  obtain ⟨key, -, rfl⟩ := Subject.task_inv h
  cases x with
  | metrics c w =>
    apply sends_before (CohortReport.compute_sends _ _ _ _)
    intro report
    exact sends_pure _
  | comparison site cs w =>
    apply sends_before (sends_before (CohortComparison.computeRows_sends _ _ _ _ _) fun _ =>
      sends_pure _)
    intro report
    exact sends_pure _
  | experiment e w includeGoals =>
    apply sends_before (ExperimentReport.compute_sends _ _ _ _ _ _)
    intro report
    exact sends_pure _

namespace Service

/-- The kind of a request with the outlines of its cohorts in the order of their ids; `none` where
a cohort is not the site's. -/
def profile? (s : Service) : Request → Option Profile
  | .cohortMetrics site cohort _ => do
    let c ← (s.catalog.scopedCohort site cohort).toOption
    return .metrics c.outline?
  | .compareCohorts site cohorts _ => do
    let cs ← ((sortedIds cohorts).mapM (s.catalog.scopedCohort site)).toOption
    return .comparison (cs.map Cohort.outline?)
  | .experimentResults _ _ _ includeGoals => some (.results includeGoals)
  | .experimentsResults _ _ _ includeGoals => some (.results includeGoals)

theorem profile?_of_subjects {s : Service} {r : Request} {xs : List Subject}
    (h : s.subjects r = .ok xs) {x : Subject} (hx : x ∈ xs) : s.profile? r = some x.profile := by
  cases subjects_inv h with
  | metrics hc hw =>
    obtain rfl := List.mem_singleton.mp hx
    rw [profile?, hc]
    rfl
  | comparison hcs hw =>
    obtain rfl := List.mem_singleton.mp hx
    rw [profile?, hcs]
    rfl
  | experiment he hw =>
    obtain rfl := List.mem_singleton.mp hx
    rfl
  | experiments hes hw =>
    obtain ⟨e, -, rfl⟩ := List.mem_map.mp hx
    rfl

end Service

namespace Serving

variable {σ : Type}

/-- A task asks nothing, or what its computation asks. -/
theorem serve_asked (store : Store σ) (t : ReportTask) (s : Serving σ) :
    (s.serve store t).2.asked = s.asked ∨
      (s.serve store t).2.asked = s.asked ++ (t.compute.run store s.store).asked := by
  simp only [serve, Cache.call]
  split_ifs
  · exact .inr rfl
  · exact .inl rfl

/-- What all tasks ask is what the computations ask that run, in the order of the tasks. -/
theorem serveAll_asked (store : Store σ) (ts : List ReportTask) (s : Serving σ) :
    ∃ runs : List (ReportTask × σ), (runs.map Prod.fst).Sublist ts ∧
      (s.serveAll store ts).2.asked =
        s.asked ++ runs.flatMap fun (t, state) => (t.compute.run store state).asked := by
  induction ts generalizing s with
  | nil => exact ⟨[], .slnil, (List.append_nil _).symm⟩
  | cons t rest ih =>
    obtain ⟨runs, hruns, hasked⟩ := ih (s.serve store t).2
    rcases serve_asked store t s with hnone | hsome
    · exact ⟨runs, hruns.cons t, by rw [← hnone, ← hasked]; rfl⟩
    · refine ⟨(t, s.store) :: runs, hruns.cons_cons t, ?_⟩
      rw [List.flatMap_cons, ← List.append_assoc, ← hsome, ← hasked]
      rfl

end Serving

/-- What is sent for a request is, for one task after another, nothing or the texts of a run of its
computation; these are the first of the given texts, and all of them if the run does not fail. -/
def Service.Sends (service : Service) (r : Request) (texts : List String) : Prop :=
  ∀ (σ : Type) (store : Store σ) (s : Serving σ), ∃ runs : List (ReportTask × σ),
    (∀ ts, service.tasks r = .ok ts → (runs.map Prod.fst).Sublist ts) ∧
    (s.respond service store r).2.asked =
      s.asked ++ runs.flatMap (fun (t, state) => (t.compute.run store state).asked) ∧
    ∀ run ∈ runs, run.1.compute.Sends texts

theorem Service.sends_profile {service : Service} {r : Request} {p : Profile}
    (h : ∀ p' ∈ service.profile? r, p' = p) : service.Sends r (p.texts service.config) := by
  intro σ store s
  cases htasks : service.tasks r with
  | error e =>
    refine ⟨[], by simp, ?_, by simp⟩
    simp [Serving.respond, htasks]
  | ok ts =>
    obtain ⟨runs, hruns, hasked⟩ := Serving.serveAll_asked store ts s
    refine ⟨runs, ?_, ?_, ?_⟩
    · intro ts' hts'
      rwa [← Except.ok.inj hts']
    · rw [← hasked, Serving.respond, htasks]
    · intro run hrun
      have hmem : run.1 ∈ ts := hruns.subset (List.mem_map_of_mem hrun)
      rw [Service.tasks_eq] at htasks
      obtain ⟨xs, hxs, hall⟩ := bind_ok htasks
      obtain ⟨x, hx, htask⟩ := mapM_ok_mem hall hmem
      rw [← h _ (profile?_of_subjects hxs hx)]
      exact Subject.task_sends htask

/-- Requests of one profile send the same texts, whatever else they hold. -/
theorem Service.sends_alike {service service' : Service} {r r' : Request}
    (hconfig : service.config = service'.config)
    (hlike : ∀ p ∈ service.profile? r, ∀ p' ∈ service'.profile? r', p = p') :
    ∃ texts, service.Sends r texts ∧ service'.Sends r' texts := by
  cases hp : service.profile? r with
  | some p =>
    refine ⟨p.texts service.config, service.sends_profile (by simp [hp]), ?_⟩
    rw [hconfig]
    exact service'.sends_profile fun p' hp' => (hlike p hp p' hp').symm
  | none =>
    -- A request with a cohort that is not the site's is refused and sends nothing.
    cases hp' : service'.profile? r' with
    | some p' =>
      refine ⟨p'.texts service.config, service.sends_profile (by simp [hp]), ?_⟩
      rw [hconfig]
      exact service'.sends_profile (by simp [hp'])
    | none =>
      let p : Profile := .comparison []
      exact ⟨p.texts service.config, service.sends_profile (by simp [hp]),
        hconfig ▸ service'.sends_profile (by simp [hp'])⟩

/-- A site, a cohort and values that are like text of a query themselves. -/
theorem Service.sends_alike_quote :
    let calm : Cohort := ⟨"c", "shop", "calm", [⟨"page_path", "contains", .text "/", none⟩,
      ⟨"load_time", "between", .number (.int 1), some (.number (.int 2))⟩]⟩
    let hostile : Cohort := ⟨"\x27 OR 1=1 --", "x\x27; DROP", "hostile",
      [⟨"page_path", "contains", .text "%\x27 OR ?", none⟩, ⟨"shoe_size", "equals", .text "1", none⟩,
        ⟨"load_time", "between", .text "7.5", some (.number (.int (-3)))⟩]⟩
    let service : Service := { catalog := Catalog.make [calm] [], now := default }
    let service' : Service := { catalog := Catalog.make [hostile] [], now := default }
    let r : Request := .cohortMetrics calm.site calm.id {}
    let r' : Request := .cohortMetrics hostile.site hostile.id { start := some (.text "2024-01-02") }
    service.profile? r = service'.profile? r' ∧ (service.profile? r).isSome ∧
      ∃ texts, service.Sends r texts ∧ service'.Sends r' texts := by
  intro calm hostile service service' r r'
  let p : Profile := .metrics (some [("page_path", "LIKE"), ("load_time", "BETWEEN")])
  have hp : service.profile? r = some p := rfl
  have hp' : service'.profile? r' = some p := rfl
  refine ⟨hp.trans hp'.symm, by rw [hp]; rfl, sends_alike rfl ?_⟩
  rw [hp, hp']
  simp

end CohortAnalytics
