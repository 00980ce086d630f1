import CohortAnalytics.Proofs.Cache.Call
import CohortAnalytics.Proofs.Cache.Contents
import CohortAnalytics.Proofs.Query.SiteScope
import CohortAnalytics.Proofs.Service.Keys
import CohortAnalytics.Proofs.Service.Subjects
import CohortAnalytics.Service.Serving

/-!
The service answers as if it had no cache and no other site. A task asks the store about the site of
its subject only; and what the cache keeps under a key is what every task under that key comes to,
whatever is asked and whatever happens to the cache.
-/

namespace CohortAnalytics

open Inquiry

theorem CohortReport.compute_asksOf (config : Config) (now : Instant) (c : Cohort) (w : Window) :
    (CohortReport.compute config now c w).AsksOf c.site := by
  apply asksOf_bind (asksOf_ofExcept _ _)
  intro rules
  let scope : Scope := { site := c.site, window := w, now, predicate := rules.predicate }
  apply asksOf_bind (summary_asksOf _ scope)
  intro totals
  apply asksOf_bind (topPages_asksOf _ scope)
  intro pages
  apply asksOf_bind (deviceBreakdown_asksOf scope)
  intro devices
  exact asksOf_ofExcept _ _

theorem CohortComparison.computeRow_asksOf (now : Instant) (site : String) (w : Window)
    (c : Cohort) : (computeRow now site w c).AsksOf site := by
  apply asksOf_bind (asksOf_ofExcept _ _)
  intro rules
  let scope : Scope := { site, window := w, now, predicate := rules.predicate }
  apply asksOf_bind (summary_asksOf _ scope)
  intro totals
  exact asksOf_ofExcept _ _

theorem CohortComparison.computeRows_asksOf (now : Instant) (site : String) (w : Window)
    (cs : List Cohort) : (computeRows now site w cs).AsksOf site := by
  induction cs with
  | nil => exact asksOf_pure _ _
  | cons c rest ih =>
    apply asksOf_bind (computeRow_asksOf now site w c)
    intro row
    apply asksOf_bind ih
    intro rows
    exact asksOf_pure _ _

theorem ExperimentReport.compute_asksOf (config : Config) (curve : NormalCurve) (now : Instant)
    (e : Experiment) (w : Window) (includeGoals : Bool) :
    (ExperimentReport.compute config curve now e w includeGoals).AsksOf e.site := by
  let scope : Scope := { site := e.site, window := w, now }
  apply asksOf_bind (variantCounts_asksOf _ _ scope)
  intro counts
  cases includeGoals with
  | true =>
    apply asksOf_bind (goalBreakdown_asksOf _ scope)
    intro goals
    exact asksOf_ofExcept _ _
  | false =>
    apply asksOf_bind (asksOf_pure _ _)
    intro goals
    exact asksOf_ofExcept _ _

theorem Subject.task_asksOf {s : Service} {x : Subject} {t : ReportTask} (h : x.task s = .ok t) :
    t.compute.AsksOf x.site := by
  obtain ⟨key, -, rfl⟩ := Subject.task_inv h
  cases x with
  | metrics c w =>
    apply asksOf_bind (CohortReport.compute_asksOf _ _ _ _)
    intro report
    exact asksOf_pure _ _
  | comparison site cs w =>
    apply asksOf_bind (asksOf_bind (CohortComparison.computeRows_asksOf _ _ _ _) fun _ =>
      asksOf_pure _ _)
    intro report
    exact asksOf_pure _ _
  | experiment e w includeGoals =>
    apply asksOf_bind (ExperimentReport.compute_asksOf _ _ _ _ _ _)
    intro report
    exact asksOf_pure _ _

def Service.Asks (s : Service) (r : Request) (x : Subject) (t : ReportTask) : Prop :=
  ∃ xs, s.subjects r = .ok xs ∧ x ∈ xs ∧ x.task s = .ok t

theorem Service.asks_of_mem_tasks {s : Service} {r : Request} {ts : List ReportTask}
    (h : s.tasks r = .ok ts) {t : ReportTask} (ht : t ∈ ts) : ∃ x, s.Asks r x t := by
  rw [Service.tasks_eq] at h
  obtain ⟨xs, hxs, h⟩ := bind_ok h
  obtain ⟨x, hx, htask⟩ := mapM_ok_mem h ht
  exact ⟨x, xs, hxs, hx, htask⟩

theorem Service.Asks.site_eq {s : Service} (hs : s.catalog.IsKeyed) {r : Request} {x : Subject}
    {t : ReportTask} (h : s.Asks r x t) : x.site = r.site := by
  obtain ⟨xs, hxs, hmem, -⟩ := h
  exact Subject.site_of_knownTo (subjects_knownTo hs hxs x hmem)

theorem Service.Asks.eq_of_key {s : Service} (hs : s.catalog.IsKeyed) {r r' : Request}
    {x y : Subject} {t u : ReportTask} (hx : s.Asks r x t) (hy : s.Asks r' y u)
    (hkey : t.key = u.key) : x = y := by
  obtain ⟨xs, hxs, hmem, ht⟩ := hx
  obtain ⟨ys, hys, hmem', hu⟩ := hy
  exact Subject.eq_of_key (subjects_knownTo hs hxs x hmem) (subjects_knownTo hs hys y hmem') ht hu
    hkey

theorem Service.Asks.task_eq {s : Service} (hs : s.catalog.IsKeyed) {r r' : Request}
    {x y : Subject} {t u : ReportTask} (hx : s.Asks r x t) (hy : s.Asks r' y u)
    (hkey : t.key = u.key) : t = u := by
  obtain rfl := hx.eq_of_key hs hy hkey
  obtain ⟨xs, -, -, ht⟩ := hx
  obtain ⟨ys, -, -, hu⟩ := hy
  exact Except.ok.inj (ht.symm.trans hu)

namespace ReportTask

/-- What a task comes to on a table, without a cache. -/
def fresh (table : EventTable) (t : ReportTask) : Report :=
  match (t.compute.run Store.table table).outcome with
  | .finished (.ok r) => r
  | _ => t.failed

end ReportTask

theorem Service.Asks.fresh_ofSite {s : Service} (hs : s.catalog.IsKeyed) {r : Request} {x : Subject}
    {t : ReportTask} (h : s.Asks r x t) (table : EventTable) :
    t.fresh (table.ofSite r.site) = t.fresh table := by
  have hsite := h.site_eq hs
  obtain ⟨xs, -, -, ht⟩ := h
  rw [ReportTask.fresh, ReportTask.fresh,
    Inquiry.outcome_ofSite (hsite ▸ Subject.task_asksOf ht) table]

namespace Serving

def ComesTo (service : Service) (table : EventTable) (key : String) (report : Report) : Prop :=
  ∀ r x t, service.Asks r x t → t.key = key →
    (t.compute.run Store.table table).outcome = .finished (.ok report)

/-- Nothing is under way, the store is the table, and a report is kept only under the key of tasks
that come to it. -/
structure Faithful (service : Service) (table : EventTable) (s : Serving EventTable) : Prop where
  idle : s.cache.IsIdle
  store : s.store = table
  kept : s.cache.entries.Holds (ComesTo service table)

variable {service : Service} {table : EventTable} {s : Serving EventTable}

theorem faithful_initial (service : Service) (table : EventTable) (limits : CacheLimits Number)
    (now : Number) : Faithful service table { cache := { limits, now }, store := table } := by
  refine ⟨⟨rfl, rfl⟩, rfl, ?_⟩
  intro e he
  cases he

theorem Faithful.serve (h : Faithful service table s) (hs : service.catalog.IsKeyed) {r : Request}
    {x : Subject} {t : ReportTask} (ht : service.Asks r x t) :
    (s.serve Store.table t).1 = t.fresh table ∧
      Faithful service table (s.serve Store.table t).2 := by
  have hlook := h.kept.look s.cache.now t.key
  cases hfound : s.cache.entries.look s.cache.now t.key with
  | mk found entries =>
    rw [hfound] at hlook
    cases found with
    | some e =>
      obtain ⟨hanswer, hserved, hidle, hentries⟩ := Cache.call_found h.idle hfound
        (some (.float t.ttl)) (inquire Store.table t.compute) (s.store, s.asked)
      have hkept := h.kept.found hfound r x t ht rfl
      constructor
      · simp only [Serving.serve, hanswer, ReportTask.fresh, hkept]
      · refine ⟨hidle, ?_, ?_⟩
        · exact (congrArg Prod.fst hserved).trans h.store
        · exact hentries ▸ hlook
    | none =>
      obtain ⟨⟨result, hrun⟩, hstate⟩ := Inquiry.run_table t.compute table
      have hcompute : inquire Store.table t.compute (s.store, s.asked) = (.finished result, (table,
          s.asked ++ (t.compute.run Store.table table).asked)) := by
        rw [h.store]
        simp only [inquire, hrun, hstate]
      obtain ⟨hanswer, hserved, hidle, hentries⟩ := Cache.call_computed h.idle hfound
        (some (.float t.ttl)) hcompute
      constructor
      · simp only [Serving.serve, hanswer, ReportTask.fresh, hrun]
        cases result with
        | ok report => rfl
        | error e => cases e <;> rfl
      -- A failure is shown and not kept; a report is kept for every task under the key.
      · refine ⟨hidle, congrArg Prod.fst hserved, ?_⟩
        change CacheTable.Holds _ (Cache.call _ _ _ _ _).cache.entries
        rw [hentries]
        cases result with
        | error e => exact hlook
        | ok report =>
          apply hlook.store
          intro r' y u hu hkey
          rw [← ht.task_eq hs hu hkey.symm, hrun]

theorem Faithful.serveAll (h : Faithful service table s) (hs : service.catalog.IsKeyed)
    {r : Request} {ts : List ReportTask} (hts : ∀ t ∈ ts, ∃ x, service.Asks r x t) :
    (s.serveAll Store.table ts).1 = ts.map (ReportTask.fresh table) ∧
      Faithful service table (s.serveAll Store.table ts).2 := by
  induction ts generalizing s with
  | nil => exact ⟨rfl, h⟩
  | cons t rest ih =>
    obtain ⟨x, ht⟩ := hts t (by simp)
    obtain ⟨hreport, hserved⟩ := h.serve hs ht
    obtain ⟨hreports, hlast⟩ := ih hserved fun u hu => hts u (List.mem_cons_of_mem _ hu)
    refine ⟨?_, hlast⟩
    rw [List.map_cons, ← hreport, ← hreports]
    rfl

def freshAnswer (service : Service) (table : EventTable) (r : Request) :
    Except RequestError (List Report) :=
  (service.tasks r).map fun ts => ts.map (ReportTask.fresh table)

theorem Faithful.respond (h : Faithful service table s) (hs : service.catalog.IsKeyed)
    (r : Request) :
    (s.respond service Store.table r).1 = freshAnswer service table r ∧
      Faithful service table (s.respond service Store.table r).2 := by
  unfold Serving.respond freshAnswer
  cases htasks : service.tasks r with
  | error e => exact ⟨rfl, h⟩
  | ok ts =>
    obtain ⟨hreports, hserved⟩ := h.serveAll hs fun t ht => Service.asks_of_mem_tasks htasks ht
    exact ⟨congrArg Except.ok hreports, hserved⟩

theorem freshAnswer_ofSite (hs : service.catalog.IsKeyed) (table : EventTable) (r : Request) :
    freshAnswer service (table.ofSite r.site) r = freshAnswer service table r := by
  unfold freshAnswer
  cases htasks : service.tasks r with
  | error e => rfl
  | ok ts =>
    have hfresh : ts.map (ReportTask.fresh (table.ofSite r.site)) =
        ts.map (ReportTask.fresh table) := by
      apply List.map_congr_left
      intro t ht
      obtain ⟨x, hx⟩ := Service.asks_of_mem_tasks htasks ht
      exact hx.fresh_ofSite hs table
    exact congrArg Except.ok hfresh

inductive Upkeep
  | tick (now : Number)
  | cleanup (now : Number)
  | get (key : String)
  | invalidate (key : String)
  | invalidateSite (site : String)
  | clear

namespace Upkeep

def apply (c : Cache Number Report) : Upkeep → Cache Number Report
  | .tick now => c.tick now
  | .cleanup now => (c.cleanup now).2
  | .get key => (c.get key).2
  | .invalidate key => (c.invalidate key).2
  | .invalidateSite site => (c.invalidateSite site).2
  | .clear => c.clear

theorem faithful_apply (h : Faithful service table s) (u : Upkeep) :
    Faithful service table { s with cache := u.apply s.cache } := by
  cases u with
  | tick now => exact ⟨⟨h.idle.inFlight, h.idle.closed⟩, h.store, h.kept⟩
  | cleanup now => exact ⟨⟨h.idle.inFlight, h.idle.closed⟩, h.store, h.kept.filter _⟩
  | get key => exact ⟨⟨h.idle.inFlight, h.idle.closed⟩, h.store, h.kept.look _ _⟩
  | invalidate key => exact ⟨⟨h.idle.inFlight, h.idle.closed⟩, h.store, h.kept.filter _⟩
  | invalidateSite site => exact ⟨⟨h.idle.inFlight, h.idle.closed⟩, h.store, h.kept.filter _⟩
  | clear =>
    refine ⟨⟨h.idle.inFlight, h.idle.closed⟩, h.store, ?_⟩
    intro e he
    cases he

end Upkeep

inductive Event
  | request (r : Request)
  | upkeep (u : Upkeep)

def answers (service : Service) :
    List Event → Serving EventTable → List (Request × Except RequestError (List Report))
  | [], _ => []
  | .request r :: rest, s =>
    let (answer, s) := s.respond service Store.table r
    (r, answer) :: answers service rest s
  | .upkeep u :: rest, s => answers service rest { s with cache := u.apply s.cache }

def requests : List Event → List Request
  | [] => []
  | .request r :: rest => r :: requests rest
  | .upkeep _ :: rest => requests rest

theorem Faithful.answers (h : Faithful service table s) (hs : service.catalog.IsKeyed)
    (events : List Event) :
    Serving.answers service events s =
      (requests events).map fun r => (r, freshAnswer service table r) := by
  induction events generalizing s with
  | nil => rfl
  | cons e rest ih =>
    cases e with
    | request r =>
      obtain ⟨hanswer, hserved⟩ := h.respond hs r
      rw [Serving.answers, requests, List.map_cons, ← hanswer, ← ih hserved]
    | upkeep u =>
      rw [Serving.answers, requests, ih (u.faithful_apply h)]

/-- Whatever is asked and whatever happens to the cache, each request is answered as from an empty
cache over the events of its site alone; requests that share a key share the site and the subject. -/
theorem answers_eq_isolated (config : Config) (curve : NormalCurve) (cohorts : List Cohort)
    (experiments : List Experiment) (now : Instant) (table : EventTable)
    (limits limits' : CacheLimits Number) (start start' : Number) (events : List Event) :
    let service : Service := { config, curve, catalog := .make cohorts experiments, now }
    answers service events { cache := { limits, now := start }, store := table } =
        ((requests events).map fun r => (r, (respond service Store.table r
          { cache := { limits := limits', now := start' }, store := table.ofSite r.site }).1)) ∧
      ∀ r r' ts us, service.tasks r = .ok ts → service.tasks r' = .ok us → ∀ t ∈ ts, ∀ u ∈ us,
        t.key = u.key → r.site = r'.site ∧ t = u ∧ ∃ x, service.Asks r x t ∧ service.Asks r' x u := by
  intro service
  have hs : service.catalog.IsKeyed := Catalog.isKeyed_make cohorts experiments
  constructor
  · rw [(faithful_initial service table limits start).answers hs]
    apply List.map_congr_left
    intro r _
    -- The cache for the site alone answers afresh as well, so that the two fresh answers are left.
    have hisolated := (faithful_initial service (table.ofSite r.site) limits' start').respond hs r
    rw [hisolated.1, freshAnswer_ofSite hs]
  · intro r r' ts us hts hus t ht u hu hkey
    obtain ⟨x, hx⟩ := Service.asks_of_mem_tasks hts ht
    obtain ⟨y, hy⟩ := Service.asks_of_mem_tasks hus hu
    -- The key tells the subject, and the subject has a site.
    obtain rfl := hx.eq_of_key hs hy hkey
    exact ⟨(hx.site_eq hs).symm.trans (hy.site_eq hs), hx.task_eq hs hy hkey, x, hx, hy⟩

end Serving

end CohortAnalytics
