import CohortAnalytics.Proofs.Audit.Reports
import CohortAnalytics.Proofs.Service.Failing

/-!
The exported document passes its audit just when the store has answered every query and the
experiment has two variants to compare.
-/

namespace CohortAnalytics

open Inquiry

namespace Subject

variable {s : Service} {w : Window} {start finish : Instant} {table : EventTable} {t : ReportTask}

theorem metrics_shows (hconfig : s.config.IsSound)
    (hwindow : w.resolve? s.now = some (start, finish)) {c : Cohort} {rules : Compiled}
    (hrules : CohortReport.compiled c = .ok rules) (ht : (metrics c w).task s = .ok t) :
    t.IsAnswered table ∧ ∀ r, t.Shows table r → ∃ m, .cohort m = r ∧ m.metrics.IsConsistent := by
  obtain ⟨m, hm, -, hanswered, hcounts⟩ :=
    CohortReport.compute_gives hconfig.pages hrules hwindow table
  obtain ⟨hfound, hfresh, hfailed⟩ :=
    isAnswered_of_gives ht (hm.bind (gives_pure (Report.cohort m))) hanswered
  refine ⟨hfound, ?_⟩
  rintro r (rfl | rfl)
  · exact ⟨m, hfresh.symm, hcounts.metrics.isConsistent⟩
  · exact ⟨.failed c, hfailed.symm, le_rfl, show Within 0 100 0.0 by decide +kernel⟩

/-- A comparison that has failed is told by its rows, which are missing. -/
theorem comparison_shows (hwindow : w.resolve? s.now = some (start, finish))
    (htable : table.IsCountable) {site : String} {cs : List Cohort} (hsome : cs ≠ [])
    (hcs : ∀ c ∈ cs, ∃ rules, CohortReport.compiled c = .ok rules)
    (ht : (comparison site cs w).task s = .ok t) :
    t.IsAnswered table ∧ ∀ r, t.Shows table r → ∃ c, .comparison c = r ∧
      (∀ row ∈ c.rows, row.IsConsistent) ∧ (c.rows.length = cs.length ↔ r.queryFailed = false) := by
  obtain ⟨rows, hrows, hlength, hconsistent⟩ :=
    CohortComparison.computeRows_gives hwindow htable hcs
  obtain ⟨hfound, hfresh, hfailed⟩ := isAnswered_of_gives ht
    ((hrows.bind (gives_pure { rows : CohortComparison })).bind (gives_pure (Report.comparison _))) rfl
  refine ⟨hfound, ?_⟩
  rintro r (rfl | rfl)
  · exact ⟨{ rows }, hfresh.symm, hconsistent, by rw [hfresh]; exact iff_of_true hlength rfl⟩
  · refine ⟨{ queryFailed := true }, hfailed.symm, by simp, ?_⟩
    rw [hfailed]
    exact iff_of_false (by simpa [eq_comm] using hsome) (by simp [failed, Report.queryFailed])

theorem two_le_length_iff {α : Type} {xs : List α} (hxs : xs.Nodup) :
    2 ≤ xs.length ↔ ∃ a b, a ≠ b ∧ a ∈ xs ∧ b ∈ xs := by
  classical
  rw [← List.toFinset_card_of_nodup hxs, ← Nat.lt_iff_add_one_le, Finset.one_lt_card]
  simp only [List.mem_toFinset]
  constructor
  · rintro ⟨a, ha, b, hb, hne⟩
    exact ⟨a, b, hne, ha, hb⟩
  · rintro ⟨a, b, hne, ha, hb⟩
    exact ⟨a, ha, b, hb, hne⟩

theorem experiment_shows (hconfig : s.config.IsSound) (hcurve : s.curve.IsLawful)
    (hwindow : w.resolve? s.now = some (start, finish)) (htable : table.IsCountable)
    {e : Experiment} (he : (e.variants.map Variant.id).Nodup) {days : ℤ}
    (hdays : ExperimentReport.daysSince e.startedAt s.now = .ok days) {includeGoals : Bool}
    (ht : (experiment e w includeGoals).task s = .ok t) :
    t.IsAnswered table ∧ ∀ r, t.Shows table r → ∃ x, .experiment x = r ∧ x.IsConsistent ∧
      (x.IsComplete ∧ 2 ≤ x.variants.length ↔ r.queryFailed = false ∧
        ∃ v v', v ≠ v' ∧ table.Pairs e start finish v ∧ table.Pairs e start finish v') := by
  obtain ⟨x, hx, hconsistent, hcomplete, hids, hpairs⟩ := ExperimentReport.compute_gives hconfig
    hcurve he hdays hwindow htable includeGoals
  obtain ⟨hfound, hfresh, hfailed⟩ :=
    isAnswered_of_gives ht (hx.bind (gives_pure (Report.experiment x))) hcomplete.answered
  have htwo := two_le_length_iff hids
  simp only [List.length_map, hpairs] at htwo
  refine ⟨hfound, ?_⟩
  rintro r (rfl | rfl)
  · refine ⟨x, hfresh.symm, hconsistent, ?_⟩
    rw [htwo, hfound.answered]
    exact and_congr_left' (iff_of_true hcomplete rfl)
  · refine ⟨.failed e, hfailed.symm, ⟨by simp [ExperimentReport.failed], rfl,
      .inr (show Within 0 100 0.0 by decide +kernel), by simp [ExperimentReport.failed]⟩, ?_⟩
    rw [hfound.failed]
    exact iff_of_false (fun h => absurd h.1.answered (by simp [ExperimentReport.failed])) (by simp)

end Subject

namespace Export

section Demonstration

variable {curve : NormalCurve} {now : Instant}

def demoWindow : Window := ⟨none, none, 30, by decide, by simp⟩

def demoService (curve : NormalCurve) (now : Instant) : Service :=
  { curve, catalog := demoCatalog, now }

theorem isKeyed_demoCatalog : demoCatalog.IsKeyed := Catalog.isKeyed_make _ _

theorem scopedCohort_demo {c : Cohort} (hc : c ∈ demoCohorts) :
    demoCatalog.scopedCohort demoSite c.id = .ok c := by
  simp only [demoCohorts, List.mem_cons, List.not_mem_nil, or_false] at hc
  rcases hc with rfl | rfl | rfl <;> rfl

theorem compiled_demo {c : Cohort} (hc : c ∈ demoCohorts) :
    ∃ rules, CohortReport.compiled c = .ok rules := by
  simp only [demoCohorts, List.mem_cons, List.not_mem_nil, or_false] at hc
  rcases hc with rfl | rfl | rfl <;> exact ⟨_, rfl⟩

theorem subjects_metrics {c : Cohort} (hc : c ∈ demoCohorts) :
    (demoService curve now).subjects (.cohortMetrics demoSite c.id {}) =
      .ok [.metrics c demoWindow] := by
  rw [Service.subjects, show (demoService curve now).catalog = demoCatalog from rfl,
    scopedCohort_demo hc]
  rfl

theorem subjects_comparison (curve : NormalCurve) (now : Instant) :
    ∃ cs : List Cohort, cs.length = demoCohorts.length ∧ (∀ c ∈ cs, c ∈ demoCohorts) ∧
      (demoService curve now).subjects comparisonRequest =
        .ok [.comparison demoSite cs demoWindow] := by
  have hids : (Service.sortedIds (demoCohorts.map Cohort.id)).Perm (demoCohorts.map Cohort.id) :=
    List.mergeSort_perm _ _
  have hfound : ∀ id ∈ Service.sortedIds (demoCohorts.map Cohort.id),
      ∃ c, demoCatalog.scopedCohort demoSite id = .ok c ∧ c ∈ demoCohorts := by
    intro id hid
    obtain ⟨c, hc, rfl⟩ := List.mem_map.mp (hids.mem_iff.mp hid)
    exact ⟨c, scopedCohort_demo hc, hc⟩
  obtain ⟨cs, hcs, hall⟩ := mapM_succeeds hfound
  refine ⟨cs, ?_, ?_, ?_⟩
  · rw [← hall.length_eq, hids.length_eq, List.length_map]
  · intro c hc
    exact (exists_of_forall₂ hall hc).choose_spec.2
  · change (do
      let cs ← (Service.sortedIds (demoCohorts.map Cohort.id)).mapM (demoCatalog.scopedCohort demoSite)
      return [Subject.comparison demoSite cs (← (demoService curve now).windowOf {})]) = _
    rw [hcs]
    rfl

theorem subjects_experiment : (demoService curve now).subjects experimentsRequest =
    .ok [.experiment checkoutExperiment demoWindow true] := rfl

/-- What the document is about, in the order of its requests. -/
def subjects (cs : List Cohort) : List Subject :=
  demoCohorts.map (fun c => .metrics c demoWindow) ++
    [.comparison demoSite cs demoWindow, .experiment checkoutExperiment demoWindow true]

theorem nodup_subjects (cs : List Cohort) : (subjects cs).Nodup := by
  have hcohorts : demoCohorts.Nodup := List.Nodup.of_map Cohort.id (by decide)
  have hmetrics : (demoCohorts.map fun c => Subject.metrics c demoWindow).Nodup :=
    hcohorts.map fun c d h => by injection h
  rw [subjects, List.nodup_append]
  refine ⟨hmetrics, by simp, ?_⟩
  rintro x hx y hy rfl
  obtain ⟨c, -, rfl⟩ := List.mem_map.mp hx
  simp at hy

/-- The tasks of the document: those of the cohorts, of their comparison and of the experiment. -/
structure IsTasks (curve : NormalCurve) (now : Instant) (cs : List Cohort) (ts : List ReportTask)
    (tc te : ReportTask) : Prop where
  length_eq : cs.length = demoCohorts.length
  mem_demo : ∀ c ∈ cs, c ∈ demoCohorts
  metrics : List.Forall₂ (fun c t =>
    (Subject.metrics c demoWindow).task (demoService curve now) = .ok t) demoCohorts ts
  comparison : (Subject.comparison demoSite cs demoWindow).task (demoService curve now) = .ok tc
  experiment : (Subject.experiment checkoutExperiment demoWindow true).task
    (demoService curve now) = .ok te
  metricsRequests : List.Forall₂ (fun r t => (demoService curve now).tasks r = .ok [t])
    metricsRequests ts
  comparisonRequest : (demoService curve now).tasks comparisonRequest = .ok [tc]
  experimentsRequest : (demoService curve now).tasks experimentsRequest = .ok [te]
  keys : ((ts ++ [tc, te]).map ReportTask.key).Nodup

theorem exists_tasks (curve : NormalCurve) (now : Instant) :
    ∃ cs ts tc te, IsTasks curve now cs ts tc te := by
  have hsite : demoSite ≠ "" := by decide
  have htask : ∀ c ∈ demoCohorts, ∃ t,
      (Subject.metrics c demoWindow).task (demoService curve now) = .ok t ∧
        ((demoService curve now).tasks (.cohortMetrics demoSite c.id {}) = .ok [t] ∧
          ∃ r, (demoService curve now).Asks r (.metrics c demoWindow) t) := by
    intro c hc
    have hhome : c.site = demoSite := (Catalog.scopedCohort_ok (scopedCohort_demo hc)).2.2
    obtain ⟨t, ht⟩ := Subject.task_ok (demoService curve now)
      (x := .metrics c demoWindow) (show c.site ≠ "" from hhome ▸ hsite)
    obtain ⟨htasks, hask⟩ := Service.tasks_of_subjects (subjects_metrics hc) ht
    exact ⟨t, ht, htasks, _, hask⟩
  obtain ⟨ts, hts, hall⟩ := mapM_succeeds htask
  obtain ⟨cs, hlength, hcs, hsubject⟩ := subjects_comparison curve now
  obtain ⟨tc, htc⟩ := Subject.task_ok (demoService curve now)
    (x := .comparison demoSite cs demoWindow) hsite
  obtain ⟨te, hte⟩ := Subject.task_ok (demoService curve now)
    (x := .experiment checkoutExperiment demoWindow true) hsite
  obtain ⟨hcomparison, haskc⟩ := Service.tasks_of_subjects hsubject htc
  obtain ⟨hexperiments, haske⟩ := Service.tasks_of_subjects subjects_experiment hte
  have hasks : List.Forall₂ (fun x t => ∃ r, (demoService curve now).Asks r x t) (subjects cs)
      (ts ++ [tc, te]) :=
    List.rel_append (List.forall₂_map_left_iff.mpr (hall.imp fun _ _ h => h.2))
      (.cons ⟨_, haskc⟩ (.cons ⟨_, haske⟩ .nil))
  exact ⟨cs, ts, tc, te, hlength, hcs, mapM_ok hts, htc, hte,
    List.forall₂_map_left_iff.mpr (hall.imp fun _ _ h => h.1), hcomparison, hexperiments,
    Service.nodup_keys isKeyed_demoCatalog hasks (nodup_subjects cs)⟩

end Demonstration

theorem exists_map_eq {α β : Type} {f : α → β} {p : α → Prop} {ys : List β}
    (h : ∀ y ∈ ys, ∃ x, f x = y ∧ p x) : ∃ xs : List α, xs.map f = ys ∧ ∀ x ∈ xs, p x := by
  induction ys with
  | nil => exact ⟨[], rfl, by simp⟩
  | cons y ys ih =>
    obtain ⟨x, rfl, hx⟩ := h y (by simp)
    obtain ⟨xs, rfl, hxs⟩ := ih fun z hz => h z (List.mem_cons_of_mem _ hz)
    exact ⟨x :: xs, rfl, List.forall_mem_cons.mpr ⟨hx, hxs⟩⟩

/-- What each of the tasks shows. -/
theorem IsTasks.shows {curve : NormalCurve} {now start : Instant} {cs : List Cohort}
    {ts : List ReportTask} {tc te : ReportTask} (h : IsTasks curve now cs ts tc te)
    (hcurve : curve.IsLawful) (hwindow : demoWindow.resolve? now = some (start, now))
    {table : EventTable} (htable : table.IsCountable) :
    (∀ t ∈ ts, t.IsAnswered table ∧ ∀ r, t.Shows table r →
        ∃ m, Report.cohort m = r ∧ m.metrics.IsConsistent) ∧
      (tc.IsAnswered table ∧ ∀ r, tc.Shows table r → ∃ c, Report.comparison c = r ∧
        (∀ row ∈ c.rows, row.IsConsistent) ∧
          (c.rows.length = cs.length ↔ r.queryFailed = false)) ∧
      te.IsAnswered table ∧ ∀ r, te.Shows table r → ∃ x, Report.experiment x = r ∧
        x.IsConsistent ∧ (x.IsComplete ∧ 2 ≤ x.variants.length ↔ r.queryFailed = false ∧
          ∃ v v', v ≠ v' ∧ table.Pairs checkoutExperiment start now v ∧
            table.Pairs checkoutExperiment start now v') := by
  have hconfig : (demoService curve now).config.IsSound := Config.isSound_default
  have hsome : cs ≠ [] := List.ne_nil_of_length_pos (h.length_eq ▸ by decide)
  refine ⟨?_, ?_, ?_⟩
  · intro t ht
    obtain ⟨c, hc, htask⟩ := exists_of_forall₂ h.metrics ht
    obtain ⟨rules, hrules⟩ := compiled_demo hc
    exact Subject.metrics_shows hconfig hwindow hrules htask
  · exact Subject.comparison_shows hwindow htable hsome
      (fun c hc => compiled_demo (h.mem_demo c hc)) h.comparison
  · exact Subject.experiment_shows hconfig hcurve hwindow htable (by decide) rfl h.experiment

/-- The document shows the reports of the tasks, and they tell whether a call has failed. -/
theorem build_shows {service : Service} {table : EventTable} {s : Serving ℕ} (h : s.Cold [])
    (failures : ℕ → Option Failure) {ts : List ReportTask} {tc te : ReportTask}
    (hmetrics : List.Forall₂ (fun r t => service.tasks r = .ok [t]) metricsRequests ts)
    (hcomparison : service.tasks comparisonRequest = .ok [tc])
    (hexperiments : service.tasks experimentsRequest = .ok [te])
    (hkeys : ((ts ++ [tc, te]).map ReportTask.key).Nodup)
    (hanswered : ∀ t ∈ ts ++ [tc, te], t.IsAnswered table) :
    ∃ cohorts c x s', build service (Store.failing table failures) s =
        (.ok ⟨cohorts, [c], [x]⟩, s') ∧ List.Forall₂ (ReportTask.Shows table) ts cohorts ∧
      tc.Shows table c ∧ te.Shows table x ∧
      (Untroubled failures s.store s'.store ↔ (∀ r ∈ cohorts, r.queryFailed = false) ∧
        c.queryFailed = false ∧ x.queryFailed = false) := by
  rw [List.map_append, List.nodup_append] at hkeys
  obtain ⟨hfirst, hlast, hapart⟩ := hkeys
  simp only [List.map_cons, List.map_nil, List.nodup_cons, List.mem_singleton, List.not_mem_nil,
    not_false_iff, List.nodup_nil, and_true] at hlast
  obtain ⟨cohorts, s₁, hrun₁, hcold₁, hle₁, hall, hcalls₁⟩ :=
    h.serveAll failures (by simpa using hfirst) fun t ht => hanswered t (List.mem_append_left _ ht)
  rw [List.nil_append] at hcold₁
  obtain ⟨c, s₂, hrun₂, hcold₂, hle₂, hc, hcalls₂⟩ := hcold₁.serve failures
    (fun hmem => hapart _ hmem _ (by simp) rfl) (hanswered tc (by simp))
  obtain ⟨x, s₃, hrun₃, -, hle₃, hx, hcalls₃⟩ := hcold₂.serve failures
    (fun hmem => (List.mem_append.mp hmem).elim (fun hmem => hapart _ hmem _ (by simp) rfl)
      fun hmem => hlast (List.mem_singleton.mp hmem).symm) (hanswered te (by simp))
  have hsingle {t : ReportTask} {r : Report} {a b : Serving ℕ}
      (hrun : a.serve (Store.failing table failures) t = (r, b)) :
      a.serveAll (Store.failing table failures) [t] = ([r], b) := by
    rw [Serving.serveAll, hrun]
    rfl
  refine ⟨cohorts, c, x, s₃, ?_, hall, hc, hx, ?_⟩
  · have hflat : (cohorts.map ([·])).flatten = cohorts := by
      rw [← List.flatMap_def, List.flatMap_singleton']
    rw [build, Serving.respondAll_of_tasks hmetrics, hrun₁]
    dsimp only
    rw [Serving.respond_of_tasks hcomparison, hsingle hrun₂]
    dsimp only
    rw [Serving.respond_of_tasks hexperiments, hsingle hrun₃, hflat]
  · rw [untroubled_trans (hle₁.trans hle₂) hle₃, untroubled_trans hle₁ hle₂, hcalls₁, hcalls₂,
      hcalls₃, and_assoc]

/-- The document passes its audit just when no call of the store has failed and two variants are
paired with the experiment. -/
theorem audit_build_iff {curve : NormalCurve} (hcurve : curve.IsLawful) {now start : Instant}
    (hstart : now.shift? (-(30 * microsPerDay)) = some start) {table : EventTable}
    (htable : table.IsCountable) (failures : ℕ → Option Failure) {clock : Number}
    {cache : Cache Number Report} (hcache : Config.newCache {} clock = .ok cache) :
    ∃ e s found, build { curve, catalog := demoCatalog, now } (Store.failing table failures)
        { cache, store := 0 } = (.ok e, s) ∧
      audit e.toJson = .ok found ∧
      (found = [] ↔ (∀ k < s.store, failures k = none) ∧
        ∃ v v', v ≠ v' ∧ table.Pairs checkoutExperiment start now v ∧
          table.Pairs checkoutExperiment start now v') := by
  have hwindow : demoWindow.resolve? now = some (start, now) := by
    change (now.shift? (-(30 * microsPerDay)) >>= fun start => pure (start, now)) = _
    rw [hstart]
    rfl
  obtain ⟨cs, ts, tc, te, h⟩ := exists_tasks curve now
  obtain ⟨hmetrics, hcomparison, hexperiment⟩ := h.shows hcurve hwindow htable
  have hanswered : ∀ t ∈ ts ++ [tc, te], t.IsAnswered table := by
    simp only [List.mem_append, List.mem_cons, List.not_mem_nil, or_false]
    rintro t (ht | rfl | rfl)
    · exact (hmetrics t ht).1
    · exact hcomparison.1
    · exact hexperiment.1
  have hcold : Serving.Cold [] { cache, store := 0 } := by
    obtain rfl := Except.ok.inj hcache
    exact ⟨⟨rfl, rfl⟩, fun e he => absurd he List.not_mem_nil⟩
  -- Each of the tasks meets a cold cache under its key, so each reaches the store.
  obtain ⟨reports, rc, re, s, hbuild, hall, hc, he, hcalls⟩ := build_shows hcold failures
    h.metricsRequests h.comparisonRequest h.experimentsRequest h.keys hanswered
  -- the document of these reports
  obtain ⟨comparison, rfl, hrows, hrowCount⟩ := hcomparison.2 rc hc
  obtain ⟨experiment, rfl, hnumbers, hpass⟩ := hexperiment.2 re he
  have hreports : ∀ r ∈ reports, ∃ m, Report.cohort m = r ∧ m.metrics.IsConsistent := by
    intro r hr
    obtain ⟨t, ht, hshows⟩ := exists_of_forall₂ hall hr
    exact (hmetrics t ht).2 r hshows
  obtain ⟨cohorts, rfl, hcohorts⟩ := exists_map_eq hreports
  have hfound := Audit.audit_toJson hcohorts hrows (List.forall_mem_singleton.mpr hnumbers)
  have hcount : cohorts.length = cs.length := by
    rw [h.length_eq, h.metrics.length_eq, hall.length_eq, List.length_map]
  have hthere : cohorts ≠ [] := List.ne_nil_of_length_pos (hcount ▸ h.length_eq ▸ by decide)
  have huntroubled : Untroubled failures 0 s.store ↔ ∀ k < s.store, failures k = none :=
    ⟨fun h k hk => h k (Nat.zero_le k) hk, fun h k _ hk => h k hk⟩
  refine ⟨_, s, _, hbuild, hfound, ?_⟩
  rw [Audit.documentFindings_eq_nil, ← huntroubled, hcalls, hcount, hrowCount,
    List.forall_mem_singleton, hpass, List.forall_mem_map]
  constructor
  · rintro ⟨⟨-, hcohorts⟩, hcomparison, -, hexperiment, hpairs⟩
    exact ⟨⟨hcohorts, hcomparison, hexperiment⟩, hpairs⟩
  · rintro ⟨⟨hcohorts, hcomparison, hexperiment⟩, hpairs⟩
    exact ⟨⟨hthere, hcohorts⟩, hcomparison, List.cons_ne_nil _ _, hexperiment, hpairs⟩

/-- A session in each of two variants is enough as long as no call fails. -/
theorem audit_build_iff_two_sessions :
    let now : Instant := ⟨100 * microsPerDay, by decide⟩
    let start : Instant := ⟨70 * microsPerDay, by decide⟩
    let session (id variant : String) : StoredEvent :=
      ⟨id, demoSite, id, "page_view", now, none, none, none, none, none, none, none, none, none,
        [some checkoutExperiment.id], [some variant], .null⟩
    let table : EventTable := ⟨[session "s1" "control", session "s2" "variant_a"]⟩
    now.shift? (-(30 * microsPerDay)) = some start ∧ table.IsCountable ∧
      ∃ cache, Config.newCache {} (.float 0.0) = .ok cache ∧
        ∃ e s, build { catalog := demoCatalog, now } (Store.failing table fun _ => none)
            { cache, store := 0 } = (.ok e, s) ∧ audit e.toJson = .ok [] := by
  intro now start session table
  have hstart : now.shift? (-(30 * microsPerDay)) = some start := by decide
  have htable : table.IsCountable := by
    change 2 < 2 ^ 63
    norm_num
  obtain ⟨cache, hcache⟩ : ∃ cache, Config.newCache {} (.float 0.0) = .ok cache := ⟨_, rfl⟩
  obtain ⟨e, s, found, hbuild, hfound, hempty⟩ :=
    audit_build_iff standardNormal_isLawful hstart htable (fun _ => none) hcache
  have hcontrol : table.Pairs checkoutExperiment start now "control" :=
    ⟨session "s1" "control", by simp [table], rfl, by decide, le_rfl, rfl⟩
  have hvariant : table.Pairs checkoutExperiment start now "variant_a" :=
    ⟨session "s2" "variant_a", by simp [table], rfl, by decide, le_rfl, rfl⟩
  obtain rfl := hempty.mpr ⟨fun _ _ => rfl, _, _, by decide, hcontrol, hvariant⟩
  exact ⟨hstart, htable, cache, hcache, e, s, hbuild, hfound⟩

end Export

end CohortAnalytics
