import CohortAnalytics.Proofs.Service.ShownCohorts

/-!
The numbers of a cohort against each other. The totals, the pages and the devices of a report are
counted on the same events, a page and a device on some of them and the devices together on all; a
comparison counts the same events again.
-/

namespace CohortAnalytics

open Inquiry

namespace CohortReport

/-- The numbers of a report fit together. -/
structure AddsUp (r : CohortReport) : Prop where
  metrics : r.metrics.IsConsistent
  sessions_le : r.metrics.sessions ≤ r.metrics.totalEvents
  clicking_le : r.metrics.sessionsWithClicks ≤ r.metrics.totalClicks
  clicks_scrolls : r.metrics.totalClicks + r.metrics.totalScrolls ≤ r.metrics.totalEvents
  views : (r.topPages.map PageRow.views).sum ≤ r.metrics.totalEvents
  pages : ∀ p ∈ r.topPages, p.sessions ≤ p.views ∧ p.sessions ≤ r.metrics.sessions
  devices : ∀ d ∈ r.devices, d.sessions ≤ r.metrics.sessions
  covered : r.metrics.sessions ≤ (r.devices.map DeviceRow.sessions).sum
  unvisited : r.metrics.sessions = 0 → r.metrics.clickRate = 0.0

end CohortReport

theorem Measure.length_filter_types {type type' : String} (hne : type ≠ type')
    (events : List StoredEvent) :
    (events.filter (isType type)).length + (events.filter (isType type')).length ≤
      events.length := by
  rw [List.length_eq_length_filter_add (l := events) (isType type)]
  refine Nat.add_le_add_left (List.monotone_filter_right _ fun e he => ?_).length_le _
  rw [isType, beq_iff_eq] at he
  simpa [isType, he] using hne.symm

namespace AggregateShape

variable {shape : AggregateShape} {scope : Scope} {start finish : Instant} {t : EventTable}
  {g : Query.Group}

theorem rows_subset (h : g ∈ shape.answered scope start finish t) :
    g.rows ⊆ scope.events start finish t := by
  rw [(isGroupOf_answered h).rows, events, List.filter_filter]
  exact List.filter_sublist.subset

theorem sessionCount_rows_le (h : g ∈ shape.answered scope start finish t) :
    Measure.sessionCount g.rows ≤ Measure.sessionCount (scope.events start finish t) :=
  Measure.sessionCount_mono fun _ he => rows_subset h he

/-- The groups of an answer have no more events than the scope. -/
theorem sum_length_answered_le :
    ((shape.answered scope start finish t).map fun g => g.rows.length).sum ≤
      (scope.events start finish t).length :=
  (Query.sum_length_le (Query.answered_subperm _ _)).trans (List.length_filter_le _ _)

/-- Without filters and without a limit no session is left out. -/
theorem sessionCount_le_sum_answered (hfilters : shape.filters = []) (hlimit : shape.limit = none) :
    Measure.sessionCount (scope.events start finish t) ≤
      ((shape.answered scope start finish t).map fun g => Measure.sessionCount g.rows).sum := by
  have hevents : shape.events scope start finish t = scope.events start finish t := by
    rw [events, hfilters]
    exact List.filter_eq_self.mpr fun _ _ => rfl
  have hperm := (Query.answered_perm (q := shape.query scope.site start finish scope.predicate) hlimit
    (scope.events start finish t)).map fun g => Measure.sessionCount g.rows
  rw [answered, hevents, hperm.sum_eq]
  exact Query.sessionCount_le_sum_groups _ _

end AggregateShape

namespace CohortReport

theorem Counts.addsUp {r : CohortReport} {limit : ℤ} {scope : Scope} {start finish : Instant}
    {t : EventTable} (h : r.Counts limit scope start finish t) : r.AddsUp where
  metrics := h.metrics.isConsistent
  sessions_le := by
    rw [h.metrics.sessions, h.metrics.totalEvents]
    exact_mod_cast Measure.sessionCount_le _
  clicking_le := by
    rw [h.metrics.sessionsWithClicks, h.metrics.totalClicks]
    exact_mod_cast Measure.sessionCount_le _
  clicks_scrolls := by
    rw [h.metrics.totalClicks, h.metrics.totalScrolls, h.metrics.totalEvents]
    exact_mod_cast Measure.length_filter_types (by decide) _
  views := by
    have hviews : ((pagesShape (some limit)).answered scope start finish t).map
        (fun g => (g.rows.length : ℤ)) = r.topPages.map PageRow.views :=
      map_eq_of_forall₂ (h.topPages.imp fun _ _ hp => hp.views.symm)
    have hsum := @AggregateShape.sum_length_answered_le (pagesShape (some limit)) scope start finish t
    rw [← hviews, h.metrics.totalEvents]
    simpa [Nat.cast_list_sum, Function.comp_def] using Int.ofNat_le.mpr hsum
  pages p hp := by
    obtain ⟨g, hg, hcounts⟩ := exists_of_forall₂ h.topPages hp
    rw [hcounts.sessions, hcounts.views, h.metrics.sessions, Int.ofNat_le, Int.ofNat_le]
    exact ⟨Measure.sessionCount_le _, AggregateShape.sessionCount_rows_le hg⟩
  devices d hd := by
    obtain ⟨g, hg, hcounts⟩ := exists_of_forall₂ h.devices hd
    rw [hcounts.sessions, h.metrics.sessions]
    exact_mod_cast AggregateShape.sessionCount_rows_le hg
  covered := by
    have hsessions : (devicesShape.answered scope start finish t).map
        (fun g => (Measure.sessionCount g.rows : ℤ)) = r.devices.map DeviceRow.sessions :=
      map_eq_of_forall₂ (h.devices.imp fun _ _ hd => hd.sessions.symm)
    have hsum := @AggregateShape.sessionCount_le_sum_answered devicesShape scope start finish t rfl rfl
    rw [← hsessions, h.metrics.sessions]
    simpa [Nat.cast_list_sum, Function.comp_def] using Int.ofNat_le.mpr hsum
  unvisited hnone := by
    have hrate := h.metrics.clickRate
    rw [hnone] at hrate
    exact (Except.ok.inj hrate).symm

/-- A report that comes out has been counted: its rules are compiled, and its window is resolved. -/
theorem counts_of_gives {config : Config} {now : Instant} {c : Cohort} {w : Window} {t : EventTable}
    {r : CohortReport} (h : (compute config now c w).Gives t r) :
    ∃ rules start finish, compiled c = .ok rules ∧ w.resolve? now = some (start, finish) ∧
      r.Counts config.topPagesLimit { site := c.site, window := w, now, predicate := rules.predicate }
        start finish t := by
  obtain ⟨rules, hrules, hrest⟩ := h.bind_inv
  obtain ⟨totals, -, hrest⟩ := hrest.bind_inv
  obtain ⟨pages, hpages, -⟩ := hrest.bind_inv
  obtain ⟨rows, hrows, -⟩ := Gives.bind_inv hpages
  obtain ⟨-, hlimit, start, finish, hwindow⟩ := AggregateShape.of_gives_aggregate
    (show ∀ f ∈ (pagesShape (some config.topPagesLimit)).filters, f.IsTest by
      simp [pagesShape, Filter.hasPath, Filter.isTest_ofTest]) hrows
  obtain ⟨other, hother, -, -, hcounts⟩ :=
    compute_gives hlimit (run_ofExcept_ok hrules) hwindow t
  rw [h.unique hother]
  exact ⟨rules, start, finish, run_ofExcept_ok hrules, hwindow, hcounts⟩

end CohortReport

/-- A row of a comparison has the numbers of the report on its cohort. -/
structure ComparisonRow.Agrees (row : ComparisonRow) (m : CohortMetrics) : Prop where
  sessions : row.sessions = m.sessions
  events : row.events = m.totalEvents
  clicks : row.clicks = m.totalClicks

theorem ComparisonRow.Counts.agrees {row : ComparisonRow} {m : CohortMetrics}
    {events : List StoredEvent} (hrow : row.Counts events) (hm : m.Counts events) : row.Agrees m :=
  ⟨hrow.sessions.trans hm.sessions.symm, hrow.events.trans hm.totalEvents.symm,
    hrow.clicks.trans hm.totalClicks.symm⟩

namespace CohortComparison

variable {now : Instant} {site : String} {w : Window} {t : EventTable}

/-- A row on the events of a cohort. -/
def IsRowOf (now : Instant) (site : String) (w : Window) (t : EventTable) (c : Cohort)
    (row : ComparisonRow) : Prop :=
  row.cohortId = c.id ∧ ∃ rules start finish, CohortReport.compiled c = .ok rules ∧
    w.resolve? now = some (start, finish) ∧
      row.Counts (Scope.events { site, window := w, now, predicate := rules.predicate } start finish t)

theorem isRowOf_of_gives {c : Cohort} {row : ComparisonRow}
    (h : (computeRow now site w c).Gives t row) : IsRowOf now site w t c row := by
  obtain ⟨rules, hrules, h⟩ := h.bind_inv
  obtain ⟨totals, htotals, h⟩ := h.bind_inv
  obtain ⟨rows, hrows, -⟩ := Gives.bind_inv htotals
  obtain ⟨-, -, start, finish, hwindow⟩ := AggregateShape.of_gives_aggregate (by simp) hrows
  have hcounted := summary_gives { site, window := w, now, predicate := rules.predicate }
    (show (rowMeasures.map Measure.name).Nodup by decide) hwindow t
  obtain rfl := Gives.unique htotals hcounted
  obtain ⟨hid, hcounts⟩ := counts_of_rowOf (run_ofExcept_ok h)
  exact ⟨hid, rules, start, finish, run_ofExcept_ok hrules, hwindow, hcounts⟩

theorem areRowsOf_of_gives {cs : List Cohort} {rows : List ComparisonRow}
    (h : (computeRows now site w cs).Gives t rows) : List.Forall₂ (IsRowOf now site w t) cs rows := by
  induction cs generalizing rows with
  | nil =>
    obtain rfl := Inquiry.run_pure_ok h
    exact .nil
  | cons c rest ih =>
    obtain ⟨row, hrow, h⟩ := Gives.bind_inv h
    obtain ⟨others, hothers, h⟩ := Gives.bind_inv h
    obtain rfl := Inquiry.run_pure_ok h
    exact .cons (isRowOf_of_gives hrow) (ih hothers)

/-- In one window a cohort has the same numbers in its report and in a comparison. -/
theorem IsRowOf.agrees {c : Cohort} {row : ComparisonRow} (h : IsRowOf now c.site w t c row)
    {config : Config} {w' : Window} (hsame : w.resolve? now = w'.resolve? now) {r : CohortReport}
    (hr : (CohortReport.compute config now c w').Gives t r) : row.Agrees r.metrics := by
  obtain ⟨-, rules, start, finish, hrules, hwindow, hcounts⟩ := h
  obtain ⟨rules', start', finish', hrules', hwindow', hcounts'⟩ := CohortReport.counts_of_gives hr
  obtain rfl := Except.ok.inj (hrules.symm.trans hrules')
  obtain ⟨rfl, rfl⟩ := Prod.mk.inj (Option.some.inj (hwindow.symm.trans (hsame.trans hwindow')))
  exact hcounts.agrees hcounts'.metrics

end CohortComparison

namespace Serving

section Unedited

variable {config : Config} {curve : NormalCurve} {cohorts : List Cohort}
  {experiments : List Experiment} {now : Instant} {limits : CacheLimits Number} {start : Number}
  {σ : Type} {table : EventTable} {store : Store σ} {st : σ} {turns : List Turn} {x : Exchange}
  {site id : String} {ids : List String} {bounds : TimeBounds} {reports : List Report}

/-- Without edits every exchange is with the same service. -/
theorem follows_unedited (hstill : ∀ now, .move now ∉ turns) (hunedited : ∀ c, .edit c ∉ turns)
    (hx : x ∈ exchanges store turns { config, curve, catalog := .make cohorts experiments, now }
      { cache := { limits, now := start }, store := st }) :
    ∃ past, x ∈ past ∧ x.Follows store past ∧
      (∀ y ∈ past, y.service.IsOf config (cohorts ++ turns.filterMap Turn.edited?)) ∧
      ∀ y ∈ past, y.service = { config, curve, catalog := .make cohorts experiments, now } := by
  obtain ⟨before, after, hrun⟩ := List.append_of_mem hx
  obtain ⟨hfollows, hpast⟩ := follows_of_run hrun
  refine ⟨before ++ [x], by simp, hfollows, hpast, fun y hy => ?_⟩
  have hmem := List.mem_append_left after hy
  rw [← List.append_cons, ← hrun] at hmem
  exact service_of_mem_exchanges (q := (· = _)) rfl (fun c _ hc => absurd hc (hunedited c))
    (fun now _ hnow => absurd hnow (hstill now)) hmem

/-- A report that has not failed is what its cohort comes to on the table. -/
theorem metrics_of_mem (hstore : store.AnswersFrom table) (hstill : ∀ now, .move now ∉ turns)
    (hunedited : ∀ c, .edit c ∉ turns)
    (hx : x ∈ exchanges store turns { config, curve, catalog := .make cohorts experiments, now }
      { cache := { limits, now := start }, store := st })
    (hr : x.request = .cohortMetrics site id bounds) (hreports : x.answer = .ok reports) :
    ∃ c w r, (Catalog.make cohorts experiments).scopedCohort site id = .ok c ∧
      Service.windowOf { config, now } bounds = .ok w ∧ reports = [.cohort r] ∧ r.cohort = c ∧
      (r.queryFailed = false → (CohortReport.compute config now c w).Gives table r) := by
  obtain ⟨past, hmem, hfollows, hpast, hservice⟩ := follows_unedited hstill hunedited hx
  obtain ⟨c, w, r, hc, hw, hone, hreport⟩ := hfollows.metrics hmem hpast hr hreports
  rw [hservice x hmem] at hc hw
  refine ⟨c, w, r, hc, hw, hone, ?_⟩
  rcases hreport with ⟨rfl, -⟩ | ⟨y, hy, d, st', -, hd, -, hcomputed⟩
  · exact ⟨rfl, fun hanswered => by cases hanswered⟩
  · rw [hservice y hy] at hd hcomputed
    obtain rfl := Except.ok.inj (hc.symm.trans hd)
    exact ⟨(CohortReport.compute_inv hcomputed).1, fun _ => gives_of_run hstore hcomputed⟩

theorem comparison_of_mem (hstore : store.AnswersFrom table) (hstill : ∀ now, .move now ∉ turns)
    (hunedited : ∀ c, .edit c ∉ turns)
    (hx : x ∈ exchanges store turns { config, curve, catalog := .make cohorts experiments, now }
      { cache := { limits, now := start }, store := st })
    (hr : x.request = .compareCohorts site ids bounds) (hreports : x.answer = .ok reports) :
    ∃ cs w r, (Service.sortedIds ids).mapM ((Catalog.make cohorts experiments).scopedCohort site) =
        .ok cs ∧
      Service.windowOf { config, now } bounds = .ok w ∧ reports = [.comparison r] ∧
      (r.queryFailed = false → (CohortComparison.compute now site cs w).Gives table r) := by
  obtain ⟨past, hmem, hfollows, hpast, hservice⟩ := follows_unedited hstill hunedited hx
  obtain ⟨cs, w, r, hcs, hw, hone, hreport⟩ := hfollows.comparison hmem hpast hr hreports
  rw [hservice x hmem] at hcs hw
  refine ⟨cs, w, r, hcs, hw, hone, fun hanswered => ?_⟩
  rcases hreport with rfl | ⟨y, hy, ds, st', -, hds, -, hcomputed⟩
  · cases hanswered
  · rw [hservice y hy] at hds hcomputed
    obtain rfl := Except.ok.inj (hcs.symm.trans hds)
    exact gives_of_run hstore hcomputed

end Unedited

/-- On one table and at one time, the numbers of a report that has not failed fit together, and a
comparison over the same window that has not failed either has rows on the cohort, all of them with
the same numbers. -/
theorem cohort_numbers_agree (config : Config) (curve : NormalCurve) (cohorts : List Cohort)
    (experiments : List Experiment) (now : Instant) (limits : CacheLimits Number) (start : Number)
    {σ : Type} (table : EventTable) (store : Store σ) (hstore : store.AnswersFrom table) (st : σ)
    (turns : List Turn) (hstill : ∀ now, .move now ∉ turns) (hunedited : ∀ c, .edit c ∉ turns) :
    let service : Service := { config, curve, catalog := .make cohorts experiments, now }
    let past := exchanges store turns service { cache := { limits, now := start }, store := st }
    ∀ x ∈ past, ∀ site id bounds reports, x.request = .cohortMetrics site id bounds →
      x.answer = .ok reports → ∃ w r, service.windowOf bounds = .ok w ∧ reports = [.cohort r] ∧
        r.cohort.id = id ∧ (r.queryFailed = false → r.AddsUp ∧
          ∀ y ∈ past, ∀ ids bounds' others, y.request = .compareCohorts site ids bounds' →
            y.answer = .ok others → id ∈ ids → ∃ w' comparison, service.windowOf bounds' = .ok w' ∧
              others = [.comparison comparison] ∧ (comparison.queryFailed = false →
                w'.resolve? now = w.resolve? now →
                  (∃ row ∈ comparison.rows, row.cohortId = id) ∧
                    ∀ row ∈ comparison.rows, row.cohortId = id → row.Agrees r.metrics)) := by
  intro service past x hx site id bounds reports hr hreports
  have hkeyed := Catalog.isKeyed_make cohorts experiments
  obtain ⟨_, w, r, hc, hw, hone, rfl, hgives⟩ :=
    metrics_of_mem hstore hstill hunedited hx hr hreports
  obtain ⟨-, hfind, hsite⟩ := Catalog.scopedCohort_ok hc
  have hid : r.cohort.id = id := hkeyed.cohorts _ _ hfind
  refine ⟨w, r, hw, hone, hid, fun hanswered => ?_⟩
  have hreport := hgives hanswered
  obtain ⟨_, _, _, -, -, hcounts⟩ := CohortReport.counts_of_gives hreport
  refine ⟨hcounts.addsUp, fun y hy ids bounds' others hr' hreports' hmem => ?_⟩
  obtain ⟨cs, w', comparison, hcs, hw', hone', hgives'⟩ :=
    comparison_of_mem hstore hstill hunedited hy hr' hreports'
  refine ⟨w', comparison, hw', hone', fun hanswered' hsame => ?_⟩
  obtain ⟨rows, hrows, hcomparison⟩ := Gives.bind_inv (hgives' hanswered')
  obtain rfl := Inquiry.run_pure_ok hcomparison
  have hrowsOf := CohortComparison.areRowsOf_of_gives hrows
  -- The catalogue holds one cohort under the id, and the comparison is about it.
  obtain ⟨hids, hfound⟩ := Service.scopedCohorts_ok hkeyed hcs
  have honly : ∀ c ∈ cs, c.id = id → c = r.cohort := by
    intro c hc hcid
    have hfind' := hfound c hc
    rw [hcid, hfind] at hfind'
    exact (Option.some.inj hfind').symm
  constructor
  · have hlisted : id ∈ cs.map Cohort.id := by
      rw [hids, Service.sortedIds, List.mem_mergeSort, List.mem_eraseDups]
      exact hmem
    obtain ⟨c, hc, hcid⟩ := List.mem_map.mp hlisted
    obtain ⟨row, hrow, hrowOf⟩ := exists_of_forall₂ hrowsOf.flip hc
    exact ⟨row, hrow, hrowOf.1.trans hcid⟩
  · intro row hrow hrowId
    obtain ⟨c, hc, hrowOf⟩ := exists_of_forall₂ hrowsOf hrow
    obtain rfl := honly c hc (hrowOf.1.symm.trans hrowId)
    rw [← hsite] at hrowOf
    exact hrowOf.agrees hsame hreport

section Clicked

variable {service : Service} {table : EventTable} {s : Serving ℕ} {done : List String}

/-- A new task on a store none of whose calls fail. -/
theorem Cold.respond_steady (h : s.Cold done) {r : Request} {a : Subject} {t : ReportTask}
    (ht : a.task service = .ok t) (ha : service.subjects r = .ok [a]) (hnew : t.key ∉ done)
    {report : Report} (hgives : (a.inquiry service).Gives table report)
    (hanswered : report.queryFailed = false) :
    ∃ s', s.respond service (Store.failing table fun _ => none) r = (.ok [report], s') ∧
      s'.Cold (done ++ [t.key]) := by
  obtain ⟨hfinds, hfresh, -⟩ := Subject.isAnswered_of_gives ht hgives hanswered
  obtain ⟨shown, s', hserve, hcold, -, hshown, hcalls⟩ := h.serve (fun _ => none) hnew hfinds
  have hreport : shown = report := by
    rw [← hfresh]
    refine hshown.resolve_right fun hfailed => ?_
    have hsteady := hcalls.mp fun _ _ _ => rfl
    rw [hfailed, hfinds.failed] at hsteady
    cases hsteady
  refine ⟨s', ?_, hcold⟩
  rw [respond_single (Service.tasks_of_subjects ha ht).1, hserve, hreport]

def clickTable : EventTable := ⟨[{ AggregateShape.clickAt "s" with timestamp := newYear }]⟩

def clickStore : Store ℕ := Store.failing clickTable fun _ => none

def clickTurns : List Turn :=
  [.request (.cohortMetrics "s" "c" {}), .request (.compareCohorts "s" ["c"] {})]

def clickServing : Serving ℕ := { cache := emptyServing.cache, store := 0 }

/-- A cohort is asked for alone and in a comparison. -/
def clickExchanges : List Exchange := exchanges clickStore clickTurns cohortService clickServing

theorem clickExchanges_answered : ∃ x y r comparison, clickExchanges = [x, y] ∧
    x.request = .cohortMetrics "s" "c" {} ∧ y.request = .compareCohorts "s" ["c"] {} ∧
    x.answer = .ok [.cohort r] ∧ y.answer = .ok [.comparison comparison] ∧ r.queryFailed = false ∧
    comparison.queryFailed = false ∧ r.metrics.totalClicks = 1 := by
  have hrules : CohortReport.compiled formerCohort = .ok {} := rfl
  obtain ⟨r, hreport, -, hr, hcounts⟩ := CohortReport.compute_gives
    (show Query.isLimit ({} : Config).topPagesLimit = true by decide) hrules resolve_openWindow
    clickTable
  obtain ⟨rows, hrows, -⟩ := @CohortComparison.computeRows_gives _ "s" _ _ _ resolve_openWindow
    clickTable (show 1 < 2 ^ 63 by decide) [formerCohort]
    fun c hc => ⟨{}, by rw [List.mem_singleton.mp hc]; rfl⟩
  have hids : Service.sortedIds ["c"] = ["c"] := by simp [Service.sortedIds, List.eraseDups_cons]
  let a : Subject := .metrics formerCohort openWindow
  let b : Subject := .comparison "s" [formerCohort] openWindow
  have ha : cohortService.subjects (.cohortMetrics "s" "c" {}) = .ok [a] := rfl
  have hb : cohortService.subjects (.compareCohorts "s" ["c"] {}) = .ok [b] := by
    rw [Service.subjects, hids]
    rfl
  obtain ⟨t, ht⟩ := Subject.task_ok cohortService (x := a) (by decide)
  obtain ⟨u, hu⟩ := Subject.task_ok cohortService (x := b) (by decide)
  have hdistinct : ([t, u].map ReportTask.key).Nodup :=
    Service.nodup_keys (s := cohortService) (Catalog.isKeyed_make _ _)
      (.cons ⟨_, (Service.tasks_of_subjects ha ht).2⟩
        (.cons ⟨_, (Service.tasks_of_subjects hb hu).2⟩ .nil)) (show [a, b].Nodup by simp [a, b])
  have hcold : clickServing.Cold [] := ⟨⟨rfl, rfl⟩, fun e he => by cases he⟩
  obtain ⟨s', hfirst, hcold'⟩ := hcold.respond_steady ht ha List.not_mem_nil
    (Gives.bind hreport (gives_pure _)) hr
  obtain ⟨s'', hsecond, -⟩ := hcold'.respond_steady hu hb (by simpa [eq_comm] using hdistinct)
    (Gives.bind (Gives.bind hrows (gives_pure _)) (gives_pure _)) rfl
  have hrun : clickExchanges =
      [⟨cohortService, clickServing.cache.now, .cohortMetrics "s" "c" {}, .ok [.cohort r]⟩,
        ⟨cohortService, s'.cache.now, .compareCohorts "s" ["c"] {}, .ok [.comparison { rows }]⟩] := by
    rw [clickExchanges, clickTurns, exchanges_request, exchanges_request, clickStore, hfirst, hsecond]
    rfl
  refine ⟨_, _, r, { rows }, hrun, rfl, rfl, rfl, rfl, hr, rfl, ?_⟩
  rw [hcounts.metrics.totalClicks]
  decide +kernel

/-- One click is counted in the report on its cohort and in the comparison. -/
theorem cohort_numbers_agree_click : clickStore.AnswersFrom clickTable ∧
    ∃ x y r comparison, clickExchanges = [x, y] ∧ x.answer = .ok [.cohort r] ∧
      y.answer = .ok [.comparison comparison] ∧ r.metrics.totalClicks = 1 ∧ r.AddsUp ∧
      (∃ row ∈ comparison.rows, row.cohortId = "c") ∧
      ∀ row ∈ comparison.rows, row.cohortId = "c" → row.Agrees r.metrics := by
  have hstore : clickStore.AnswersFrom clickTable := Store.answersFrom_failing _ _
  obtain ⟨x, y, r, comparison, hrun, hx, hy, hanswer, hanswer', hr, hcomparison, hclicks⟩ :=
    clickExchanges_answered
  have hmem : x ∈ clickExchanges ∧ y ∈ clickExchanges := by simp [hrun]
  obtain ⟨w, shown, hw, hone, -, hagree⟩ := cohort_numbers_agree {} standardNormal [formerCohort] []
    newYear ⟨200, .int 30, by decide⟩ (.int 0) clickTable clickStore hstore 0 clickTurns
    (by simp [clickTurns]) (by simp [clickTurns]) x hmem.1 "s" "c" {} _ hx hanswer
  obtain rfl : r = shown := by simpa using hone
  obtain ⟨hadds, hrows⟩ := hagree hr
  obtain ⟨w', other, hw', hother, hsame⟩ := hrows y hmem.2 ["c"] {} _ hy hanswer' (by simp)
  obtain rfl : comparison = other := by simpa using hother
  obtain rfl := Except.ok.inj (hw.symm.trans hw')
  obtain ⟨hrow, hagrees⟩ := hsame hcomparison rfl
  exact ⟨hstore, x, y, r, comparison, hrun, hanswer, hanswer', hclicks, hadds, hrow, hagrees⟩

end Clicked

end Serving

end CohortAnalytics
