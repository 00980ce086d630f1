import CohortAnalytics.Proofs.Number.Operations
import CohortAnalytics.Proofs.Query.Groups
import CohortAnalytics.Proofs.Results

/-!
The numbers of cohorts on a table: they are always found, they are counted on the events of the
cohort, and they fit together.
-/

namespace CohortAnalytics

open Inquiry

/-- The engine numbers the rows of a table in 63 bits, and its counts are no larger. -/
def EventTable.IsCountable (t : EventTable) : Prop := t.rows.length < 2 ^ 63

structure CohortMetrics.IsConsistent (m : CohortMetrics) : Prop where
  clicking_le : m.sessionsWithClicks ≤ m.sessions
  rate : Within 0 100 m.clickRate

def ComparisonRow.IsConsistent (r : ComparisonRow) : Prop := r.sessions ≤ r.events

theorem quotient_ok {num den : ℕ} (hden : 0 < den) {bound : ℚ} (hbound : OnGrid bound)
    (hle : (num : ℚ) / den ≤ bound) : ∃ x, quotient num den = .ok x ∧ Within 0 bound x := by
  obtain ⟨x, hx, hfaithful⟩ := Binary.ofRatio?_faithful hden hbound hle
  refine ⟨x, ?_, hfaithful 0 bound onGrid_zero hbound (by positivity) hle⟩
  rw [quotient, hx]

theorem CohortReport.clickRate_ok {clicking sessions : ℕ} (h : clicking ≤ sessions) :
    ∃ x, clickRate clicking sessions = .ok x ∧ Within 0 100 x := by
  have hhundred : OnGrid (100 : ℕ) := onGrid_natCast 100 (by norm_num)
  rw [clickRate]
  by_cases hzero : sessions = 0
  · rw [if_pos (by exact_mod_cast hzero)]
    exact ⟨0.0, rfl, by decide +kernel⟩
  · have hle : (clicking : ℚ) / sessions ≤ 1 := by
      rw [div_le_one (by exact_mod_cast Nat.pos_of_ne_zero hzero)]
      exact_mod_cast h
    obtain ⟨x, hx, hshare⟩ := quotient_ok (Nat.pos_of_ne_zero hzero) onGrid_one hle
    have hpercent : Within 0 (100 : ℕ) (x * 100) :=
      hshare.mul (show Within 100 100 100 by decide +kernel) (le_refl _) (by norm_num) onGrid_zero
        hhundred (by norm_num) (by norm_num)
    rw [if_neg (by exact_mod_cast hzero), hx]
    exact ⟨_, rfl, by exact_mod_cast hpercent.roundPlaces hhundred 1⟩

/-- The rows of an aggregate, each of which can be read. -/
theorem rows_give {α : Type} (scope : Scope) {shape : AggregateShape} (hshape : shape.IsSound)
    {start finish : Instant} (hwindow : scope.window.resolve? scope.now = some (start, finish))
    {f : AggregateRow → Except Failure α} {p : Query.Group → α → Prop}
    (hf : ∀ g, ∃ a, f (shape.rowOf g) = .ok a ∧ p g a) (t : EventTable) :
    ∃ rows as, Gives t (aggregate scope shape >>= fun rows => pure (rows.map Prod.snd)) rows ∧
      rows.mapM f = .ok as ∧ List.Forall₂ p (shape.answered scope start finish t) as := by
  have hrows := AggregateShape.aggregate_gives_answered scope hshape hwindow t
  obtain ⟨as, has, hall⟩ : ∃ as,
      ((shape.answered scope start finish t).map shape.rowOf).mapM f = .ok as ∧
        List.Forall₂ p (shape.answered scope start finish t) as := by
    rw [List.mapM_map]
    exact mapM_succeeds fun g _ => hf g
  refine ⟨_, as, hrows.bind (gives_pure _), ?_, hall⟩
  rw [List.map_map]
  exact has

/-- Totals that are counted on these events. -/
structure CohortMetrics.Counts (m : CohortMetrics) (events : List StoredEvent) : Prop where
  sessions : m.sessions = Measure.sessionCount events
  totalEvents : m.totalEvents = events.length
  sessionsWithClicks : m.sessionsWithClicks =
    Measure.sessionCount (events.filter (Measure.isType clickType))
  totalClicks : m.totalClicks = (events.filter (Measure.isType clickType)).length
  totalScrolls : m.totalScrolls = (events.filter (Measure.isType scrollType)).length
  clickRate : CohortReport.clickRate m.sessionsWithClicks m.sessions = .ok m.clickRate

structure PageRow.Counts (g : Query.Group) (p : PageRow) : Prop where
  path : p.path = (Query.keyJson g.key).display
  views : p.views = g.rows.length
  sessions : p.sessions = Measure.sessionCount g.rows

structure DeviceRow.Counts (g : Query.Group) (d : DeviceRow) : Prop where
  deviceType : d.deviceType =
    if (Query.keyJson g.key).isNothing then "" else (Query.keyJson g.key).display
  sessions : d.sessions = Measure.sessionCount g.rows

structure ComparisonRow.Counts (r : ComparisonRow) (rows : List StoredEvent) : Prop where
  sessions : r.sessions = Measure.sessionCount rows
  events : r.events = rows.length
  clicks : r.clicks = (rows.filter (Measure.isType clickType)).length

/-- A report that counts the events of its cohort on a table. -/
structure CohortReport.Counts (r : CohortReport) (limit : ℤ) (scope : Scope)
    (start finish : Instant) (t : EventTable) : Prop where
  metrics : r.metrics.Counts (scope.events start finish t)
  topPages : List.Forall₂ PageRow.Counts
    ((pagesShape (some limit)).answered scope start finish t) r.topPages
  devices : List.Forall₂ DeviceRow.Counts (devicesShape.answered scope start finish t) r.devices

theorem CohortMetrics.Counts.isConsistent {m : CohortMetrics} {events : List StoredEvent}
    (h : m.Counts events) : m.IsConsistent := by
  have hle := Measure.sessionCount_filter (Measure.isType clickType) events
  obtain ⟨rate, hrate, hwithin⟩ := CohortReport.clickRate_ok hle
  rw [← h.sessions, ← h.sessionsWithClicks, h.clickRate] at hrate
  obtain rfl := Except.ok.inj hrate
  refine ⟨?_, hwithin⟩
  rw [h.sessions, h.sessionsWithClicks]
  exact_mod_cast hle

theorem ComparisonRow.Counts.isConsistent {r : ComparisonRow} {events : List StoredEvent}
    (h : r.Counts events) : r.IsConsistent := by
  rw [IsConsistent, h.sessions, h.events]
  exact_mod_cast Measure.sessionCount_le events

namespace CohortReport

theorem metricsOf_ok (key : Json) (events : List StoredEvent) :
    ∃ m, metricsOf (.counting key Measure.cohortSummary events) = .ok m ∧ m.Counts events := by
  have hwhole {m : Measure} {n : ℤ} (hm : m ∈ Measure.cohortSummary)
      (hvalue : m.value events = .int n) :
      (AggregateRow.counting key Measure.cohortSummary events).whole m.name = .ok n :=
    AggregateRow.whole_counting Measure.nodup_cohortSummary hm hvalue
  have hsessions := hwhole (m := .sessions) (by simp [Measure.cohortSummary]) rfl
  have hclicking := hwhole (m := .sessionsWithClicks) (by simp [Measure.cohortSummary]) rfl
  have hevents := hwhole (m := .totalEvents) (by simp [Measure.cohortSummary]) rfl
  have hclicks := hwhole (m := .totalClicks) (by simp [Measure.cohortSummary]) rfl
  have hscrolls := hwhole (m := .totalScrolls) (by simp [Measure.cohortSummary]) rfl
  have hle := Measure.sessionCount_filter (Measure.isType clickType) events
  obtain ⟨rate, hrate, -⟩ := clickRate_ok hle
  simp only [Measure.name] at hsessions hclicking hevents hclicks hscrolls
  rw [metricsOf, hsessions, hclicking, hevents, hclicks, hscrolls]
  simp only [bind, Except.bind, hrate]
  exact ⟨_, rfl, rfl, rfl, rfl, rfl, rfl, hrate⟩

theorem pageOf_ok (limit : Option ℤ) (g : Query.Group) :
    ∃ p, pageOf ((pagesShape limit).rowOf g) = .ok p ∧ p.Counts g := by
  have hnames : ([.views, .sessions].map Measure.name).Nodup := by decide
  have hviews := @AggregateRow.whole_counting (Query.keyJson g.key) _ g.rows .views hnames
    (by simp) _ rfl
  have hsessions := @AggregateRow.whole_counting (Query.keyJson g.key) _ g.rows .sessions hnames
    (by simp) _ rfl
  simp only [Measure.name] at hviews hsessions
  change ∃ p, pageOf (.counting (Query.keyJson g.key) [.views, .sessions] g.rows) = .ok p ∧ _
  rw [pageOf, hviews, hsessions]
  exact ⟨_, rfl, rfl, rfl, rfl⟩

theorem deviceOf_ok (g : Query.Group) :
    ∃ d, deviceOf (devicesShape.rowOf g) = .ok d ∧ d.Counts g := by
  have hsessions := @AggregateRow.whole_counting (Query.keyJson g.key) [.sessions] g.rows .sessions
    (by decide) (by simp) _ rfl
  simp only [Measure.name] at hsessions
  change ∃ d, deviceOf (.counting (Query.keyJson g.key) [.sessions] g.rows) = .ok d ∧ _
  rw [deviceOf, hsessions]
  exact ⟨_, rfl, rfl, rfl⟩

/-- A report on a table is complete, and it counts the events of its cohort. -/
theorem compute_gives {config : Config} (hlimit : Query.isLimit config.topPagesLimit = true)
    {now : Instant} {c : Cohort} {rules : Compiled} (hrules : compiled c = .ok rules) {w : Window}
    {start finish : Instant} (hwindow : w.resolve? now = some (start, finish)) (t : EventTable) :
    ∃ r, (compute config now c w).Gives t r ∧ r.cohort = c ∧ r.queryFailed = false ∧
      r.Counts config.topPagesLimit { site := c.site, window := w, now, predicate := rules.predicate }
        start finish t := by
  let scope : Scope := { site := c.site, window := w, now, predicate := rules.predicate }
  have hpages : (pagesShape (some config.topPagesLimit)).IsSound :=
    ⟨by simp [pagesShape, Filter.hasPath, Filter.isTest_ofTest], rfl, by simpa [pagesShape],
      show ["group_0", "views", "sessions"].Nodup by decide⟩
  have hdevices : devicesShape.IsSound :=
    ⟨by simp [devicesShape], rfl, rfl, show ["group_0", "sessions"].Nodup by decide⟩
  have htotals := summary_gives scope Measure.nodup_cohortSummary hwindow t
  obtain ⟨metrics, hmetrics, hcounted⟩ := metricsOf_ok .null (scope.events start finish t)
  obtain ⟨pageRows, pages, hpageRows, hpagesOk, hpageCounts⟩ :=
    rows_give scope hpages hwindow (pageOf_ok _) t
  obtain ⟨deviceRows, devices, hdeviceRows, hdevicesOk, hdeviceCounts⟩ :=
    rows_give scope hdevices hwindow deviceOf_ok t
  refine ⟨{ cohort := c, metrics, topPages := pages, devices,
            warnings := rules.warnings.map CompileWarning.text }, ?_, rfl, rfl,
    ⟨hcounted, hpageCounts, hdeviceCounts⟩⟩
  apply (gives_ofExcept hrules).bind
  apply Gives.bind (show Gives t (cohortSummary scope) _ from htotals)
  apply Gives.bind
    (show Gives t (CohortAnalytics.topPages (some config.topPagesLimit) scope) _ from hpageRows)
  apply Gives.bind (show Gives t (deviceBreakdown scope) _ from hdeviceRows)
  apply gives_ofExcept
  rw [hmetrics, hpagesOk, hdevicesOk]
  rfl

end CohortReport

namespace CohortComparison

/-- The measures of a row of a comparison. -/
abbrev rowMeasures : List Measure := [.sessions, .totalEvents, .totalClicks]

variable {c : Cohort} {events : List StoredEvent}

/-- The rate alone may fail, by a quotient beyond the floats. -/
theorem rowOf_eq (c : Cohort) (key : Json) (events : List StoredEvent) :
    rowOf c (.counting key rowMeasures events) =
      (if (Measure.sessionCount events : ℤ) = 0 then .ok 0.0
        else quotient events.length (Measure.sessionCount events)).map fun perSession =>
          ⟨c.id, c.name, Measure.sessionCount events, events.length,
            (events.filter (Measure.isType clickType)).length, roundPlaces 1 perSession⟩ := by
  have hwhole {m : Measure} {n : ℤ} (hm : m ∈ rowMeasures) (hvalue : m.value events = .int n) :
      (AggregateRow.counting key rowMeasures events).whole m.name = .ok n :=
    AggregateRow.whole_counting (by decide) hm hvalue
  have hsessions := hwhole (m := .sessions) (by simp) rfl
  have hevents := hwhole (m := .totalEvents) (by simp) rfl
  have hclicks := hwhole (m := .totalClicks) (by simp) rfl
  simp only [Measure.name] at hsessions hevents hclicks
  rw [rowOf, hsessions, hevents, hclicks]
  simp only [bind, Except.bind]
  split_ifs
  · rfl
  · cases quotient events.length (Measure.sessionCount events) <;> rfl

theorem counts_of_rowOf {key : Json} {r : ComparisonRow}
    (h : rowOf c (.counting key rowMeasures events) = .ok r) :
    r.cohortId = c.id ∧ r.Counts events := by
  rw [rowOf_eq] at h
  generalize (if (Measure.sessionCount events : ℤ) = 0 then .ok 0.0
    else quotient events.length (Measure.sessionCount events)) = perSession at h
  cases perSession with
  | error e => cases h
  | ok x =>
    obtain rfl := Except.ok.inj h
    exact ⟨rfl, rfl, rfl, rfl⟩

theorem rowOf_ok (c : Cohort) (key : Json) (hcount : events.length < 2 ^ 63) :
    ∃ r, rowOf c (.counting key rowMeasures events) = .ok r := by
  rw [rowOf_eq]
  split_ifs with hzero
  · exact ⟨_, rfl⟩
  · have hpos : 0 < Measure.sessionCount events := by omega
    have hbound : (events.length : ℚ) / Measure.sessionCount events ≤ 2 ^ (63 : ℤ) := by
      rw [div_le_iff₀ (by exact_mod_cast hpos)]
      have hone : (1 : ℚ) ≤ Measure.sessionCount events := by exact_mod_cast hpos
      have hlt : (events.length : ℚ) ≤ 2 ^ (63 : ℤ) := by exact_mod_cast hcount.le
      nlinarith
    obtain ⟨x, hx, -⟩ := quotient_ok hpos (onGrid_zpow 63 (by norm_num) (by norm_num)) hbound
    rw [hx]
    exact ⟨_, rfl⟩

theorem computeRow_gives {now : Instant} (site : String) {c : Cohort} {rules : Compiled}
    (hrules : CohortReport.compiled c = .ok rules) {w : Window} {start finish : Instant}
    (hwindow : w.resolve? now = some (start, finish)) {t : EventTable} (ht : t.IsCountable) :
    ∃ r, (computeRow now site w c).Gives t r ∧ r.IsConsistent := by
  let scope : Scope := { site, window := w, now, predicate := rules.predicate }
  have htotals := summary_gives scope (show (rowMeasures.map Measure.name).Nodup by decide) hwindow t
  obtain ⟨r, hr⟩ := rowOf_ok c .null
    ((List.length_filter_le (scope.owns start finish) t.rows).trans_lt ht)
  refine ⟨r, ?_, (counts_of_rowOf hr).2.isConsistent⟩
  apply (gives_ofExcept hrules).bind
  exact Gives.bind (show Gives t (comparisonSummary scope) _ from htotals) (gives_ofExcept hr)

theorem computeRows_gives {now : Instant} {site : String} {w : Window} {start finish : Instant}
    (hwindow : w.resolve? now = some (start, finish)) {t : EventTable} (ht : t.IsCountable)
    {cs : List Cohort} (hcs : ∀ c ∈ cs, ∃ rules, CohortReport.compiled c = .ok rules) :
    ∃ rows, (computeRows now site w cs).Gives t rows ∧ rows.length = cs.length ∧
      ∀ r ∈ rows, r.IsConsistent := by
  induction cs with
  | nil => exact ⟨[], gives_pure [], rfl, by simp⟩
  | cons c rest ih =>
    obtain ⟨rules, hrules⟩ := hcs c (by simp)
    obtain ⟨r, hr, hconsistent⟩ := computeRow_gives site hrules hwindow ht
    obtain ⟨rows, hrows, hlength, hall⟩ := ih fun d hd => hcs d (List.mem_cons_of_mem _ hd)
    exact ⟨r :: rows, hr.bind (hrows.bind (gives_pure _)), by simp [hlength],
      List.forall_mem_cons.mpr ⟨hconsistent, hall⟩⟩

end CohortComparison

end CohortAnalytics
