import CohortAnalytics.Proofs.Cohort.Canonical
import CohortAnalytics.Proofs.Query.Failing
import CohortAnalytics.Proofs.Service.CohortAnswers
import CohortAnalytics.Proofs.Service.Versions

/-!
Rules that are edited while reports are kept. A report that the cache answers is the one that the
current rules come to on the table, since other rules have another key.
-/

namespace CohortAnalytics

/-- All rows of a store are those of one table. It may also fail, or not answer at all. -/
def Store.AnswersFrom {σ : Type} (table : EventTable) (store : Store σ) : Prop :=
  ∀ q s rows s', store q s = (.rows rows, s') → q.run table = .ok rows

namespace Inquiry

variable {α σ : Type} {table : EventTable} {store : Store σ}

theorem gives_of_run (hstore : store.AnswersFrom table) {i : Inquiry α} {st : σ} {a : α}
    (h : (i.run store st).outcome = .finished (.ok a)) : Gives table i a := by
  induction i generalizing st with
  | done r => exact h
  | ask q next ih =>
    rw [run] at h
    cases hreply : store q st with
    | mk reply after =>
      rw [hreply] at h
      cases reply with
      | rows rows =>
        rw [Gives, run, Store.table_ok (hstore q st rows after hreply)]
        exact ih rows h
      | failure f => cases h
      | stalled => cases h

end Inquiry

theorem Store.answersFrom_failing (table : EventTable) (failures : ℕ → Option Failure) :
    (Store.failing table failures).AnswersFrom table := by
  intro q k rows l hreply
  cases hcall : failures k with
  | some f => simp [Store.failing, hcall] at hreply
  | none =>
    cases hrun : q.run table with
    | ok answer =>
      simp only [Store.failing, hcall, Store.table, hrun, Prod.mk.injEq, Reply.rows.injEq] at hreply
      rw [hreply.1]
    | error f => simp [Store.failing, hcall, Store.table, hrun] at hreply

open Inquiry

/-- Of its cohort a report depends on the site and the rules alone. -/
theorem CohortReport.compute_congr {config : Config} {now : Instant} {c d : Cohort} {w : Window}
    {table : EventTable} (hsite : c.site = d.site) (hrules : c.rules = d.rules) {r : CohortReport}
    (h : (compute config now d w).Gives table r) :
    (compute config now c w).Gives table { r with cohort := c } := by
  obtain ⟨id, site, name, rules⟩ := c
  obtain ⟨id', site', name', rules'⟩ := d
  obtain rfl : site = site' := hsite
  obtain rfl : rules = rules' := hrules
  obtain ⟨compiled, hcompiled, h⟩ := h.bind_inv
  obtain ⟨totals, htotals, h⟩ := h.bind_inv
  obtain ⟨pages, hpages, h⟩ := h.bind_inv
  obtain ⟨devices, hdevices, h⟩ := h.bind_inv
  obtain ⟨metrics, hmetrics, h⟩ := bind_ok (run_ofExcept_ok h)
  obtain ⟨pageRows, hpageRows, h⟩ := bind_ok h
  obtain ⟨deviceRows, hdeviceRows, h⟩ := bind_ok h
  obtain rfl := Except.ok.inj h
  refine Gives.bind hcompiled (Gives.bind htotals (Gives.bind hpages (Gives.bind hdevices ?_)))
  apply gives_ofExcept
  rw [hmetrics, hpageRows, hdeviceRows]
  rfl

namespace Serving

/-- Whatever is edited in between, back to earlier rules as well, a report says that the store has
failed only if it fails the computation with the current rules, and otherwise it has the numbers
that these rules come to on the table. Different rules never have one text to be hashed. -/
theorem reports_current_rules (config : Config) (curve : NormalCurve) (cohorts : List Cohort)
    (experiments : List Experiment) (now : Instant) (limits : CacheLimits Number) (start : Number)
    {σ : Type} (table : EventTable) (store : Store σ) (hstore : store.AnswersFrom table) (st : σ)
    (turns : List Turn) (hstill : ∀ now, .move now ∉ turns)
    (hhashes : Cohort.HashesTell (cohorts ++ turns.filterMap Turn.edited?)) :
    let service : Service := { config, curve, catalog := .make cohorts experiments, now }
    (∀ x ∈ exchanges store turns service { cache := { limits, now := start }, store := st },
      ∀ site id bounds reports, x.request = .cohortMetrics site id bounds →
        x.answer = .ok reports → ∃ c w report,
          x.service.catalog.scopedCohort site id = .ok c ∧ x.service.windowOf bounds = .ok w ∧
          reports = [.cohort report] ∧
          (report.queryFailed = true → ∃ st, ∀ fresh,
            ((CohortReport.compute config now c w).run store st).outcome ≠ .finished (.ok fresh)) ∧
          (report.queryFailed = false →
            ∃ fresh, (CohortReport.compute config now c w).Gives table fresh ∧
              report.metrics = fresh.metrics ∧ report.topPages = fresh.topPages ∧
              report.devices = fresh.devices ∧ report.warnings = fresh.warnings)) ∧
      ∀ c d : Cohort, c.rulesJson.canonical = d.rulesJson.canonical ↔ c.rules = d.rules := by
  intro service
  refine ⟨fun x hx site id bounds reports hr hreports => ?_,
    fun c d => Cohort.canonical_rulesJson_inj⟩
  have hnow : ∀ y ∈ exchanges store turns service { cache := { limits, now := start }, store := st },
      y.service.now = now := fun y hy =>
    service_of_mem_exchanges (q := fun service => service.now = now) rfl (fun _ _ _ h => h)
      (fun later _ hmove => absurd hmove (hstill later)) hy
  obtain ⟨before, after, hrun⟩ := List.append_of_mem hx
  obtain ⟨hfollows, hpast⟩ := follows_of_run hrun
  have hx' : x ∈ before ++ [x] := by simp
  obtain ⟨c, w, report, hc, hw, hone, hreport⟩ := hfollows.metrics hx' hpast hr hreports
  refine ⟨c, w, report, hc, hw, hone, ?_⟩
  rcases hreport with ⟨rfl, st', hnone⟩ | ⟨y, hy, d, st', -, hd, hhash, hcomputed⟩
  · rw [hnow x hx] at hnone
    exact ⟨fun _ => ⟨st', hnone⟩, fun hanswered => by cases hanswered⟩
  · refine ⟨fun hfailed => ?_, fun _ => ?_⟩
    · rw [(CohortReport.compute_inv hcomputed).2] at hfailed
      cases hfailed
    · have hmem : y ∈ exchanges store turns service
          { cache := { limits, now := start }, store := st } := by
        rw [hrun, List.append_cons]
        exact List.mem_append_left _ hy
      rw [hnow y hmem] at hcomputed
      -- `d` is the cohort as it was when the report was computed: rules of one hash are one.
      have hsite : c.site = d.site :=
        (Catalog.scopedCohort_ok hc).2.2.trans (Catalog.scopedCohort_ok hd).2.2.symm
      have hrules := hhashes.rules_eq ((hpast x hx').mem_pool hc) ((hpast y hy).mem_pool hd) hhash
      exact ⟨_, CohortReport.compute_congr hsite hrules (gives_of_run hstore hcomputed), rfl, rfl,
        rfl, rfl⟩

section Retyped

/-- The start of the year 2026. -/
def newYear : Instant := ⟨739616 * microsPerDay, by decide⟩

theorem ordered_open : ∀ s ∈ (none : Option Instant), ∀ e ∈ (none : Option Instant),
    s.micros ≤ e.micros := by
  simp

def openWindow : Window := ⟨none, none, Window.defaultDays, by decide, ordered_open⟩

theorem resolve_openWindow :
    openWindow.resolve? newYear = some (⟨739586 * microsPerDay, by decide⟩, newYear) := by
  decide +kernel

/-- The cohort of the sessions with a path that equals a value. -/
def pathCohort (v : Scalar) : Cohort := ⟨"c", "s", "all", [⟨"page_path", "equals", v, none⟩]⟩

def retyped : List Scalar := [.number (.int 1), .number (.float 1)]

theorem hashes_pathCohort : (retyped.map pathCohort).map Cohort.rulesHash =
    ["e34ce2f22fe99b85", "bea4f8177eb8b62d"] := by
  simp only [retyped, List.map_cons, List.map_nil, Cohort.rulesHash, Cohort.canonical_rulesJson]
  decide +kernel

theorem compiled_pathCohort {v : Scalar} (hv : v ∈ retyped) :
    ∃ rules, CohortReport.compiled (pathCohort v) = .ok rules := by
  have hall : ∀ v ∈ retyped, (CohortReport.compiled (pathCohort v)).toOption.isSome = true := by
    decide +kernel
  have hsome := hall v hv
  revert hsome
  cases CohortReport.compiled (pathCohort v) with
  | error e => simp [Except.toOption]
  | ok rules => exact fun _ => ⟨rules, rfl⟩

theorem pathCohort_answered {v : Scalar} (hv : v ∈ retyped) (st : ℕ) :
    ∃ report, ((CohortReport.compute {} newYear (pathCohort v) openWindow).run
      (Store.failing {} fun _ => none) st).outcome = .finished (.ok report) := by
  obtain ⟨rules, hrules⟩ := compiled_pathCohort hv
  have hlimit : Query.isLimit ({} : Config).topPagesLimit = true := by decide
  obtain ⟨report, hreport, -⟩ := CohortReport.compute_gives hlimit hrules resolve_openWindow {}
  obtain ⟨-, ⟨-, houtcome⟩ | ⟨htroubled, -⟩⟩ := run_failing
    (CohortReport.compute {} newYear (pathCohort v) openWindow) {} (fun _ => none) st
  · exact ⟨report, houtcome.trans hreport⟩
  · exact absurd (fun _ _ _ => rfl) htroubled

def retypingTurns : List Turn :=
  let r : Request := .cohortMetrics "s" "c" {}
  [.request r, .edit (pathCohort (.number (.float 1))), .request r, .upkeep (.tick (.int 20)),
    .edit (pathCohort (.number (.int 1))), .request r]

def pathService : Service :=
  { catalog := .make [pathCohort (.number (.int 1))] [], now := newYear }

theorem holds_pathCohort {store : Store ℕ} {s : Serving ℕ} {x : Exchange}
    (hx : x ∈ exchanges store retypingTurns pathService s) :
    x.service.config = {} ∧ ∃ v ∈ retyped,
      x.service.catalog.scopedCohort "s" "c" = .ok (pathCohort v) := by
  refine service_of_mem_exchanges (q := fun service => service.config = {} ∧ ∃ v ∈ retyped,
    service.catalog.scopedCohort "s" "c" = .ok (pathCohort v)) ?_ ?_ (fun _ _ _ h => h) hx
  · exact ⟨rfl, .number (.int 1), by simp [retyped], rfl⟩
  · rintro c service hc ⟨hconfig, -⟩
    obtain ⟨v, hv, rfl⟩ : ∃ v ∈ retyped, c = pathCohort v := by
      simp only [retypingTurns, List.mem_cons, reduceCtorEq, Turn.edit.injEq, false_or,
        List.not_mem_nil, or_false] at hc
      rcases hc with rfl | rfl
      all_goals exact ⟨_, by simp [retyped], rfl⟩
    exact ⟨hconfig, v, hv, Catalog.scopedCohort_addCohort _ (pathCohort v)
      (show "s" ≠ "" by decide) (show "c" ≠ "" by decide)⟩

/-- The value of a rule takes one type after the other, and the first one again. -/
theorem reports_current_rules_retyped :
    let store : Store ℕ := Store.failing {} fun _ => none
    let started : Serving ℕ :=
      { cache := { limits := ⟨200, .int 30, by decide⟩, now := .int 0 }, store := 0 }
    store.AnswersFrom {} ∧ (∀ now, .move now ∉ retypingTurns) ∧
      Cohort.HashesTell ([pathCohort (.number (.int 1))] ++
        retypingTurns.filterMap Turn.edited?) ∧
      (exchanges store retypingTurns pathService started).map Exchange.request =
        List.replicate 3 (.cohortMetrics "s" "c" {}) ∧
      ∀ x ∈ exchanges store retypingTurns pathService started, ∃ c report fresh,
        x.service.catalog.scopedCohort "s" "c" = .ok c ∧ x.answer = .ok [.cohort report] ∧
        report.queryFailed = false ∧
        (CohortReport.compute {} newYear c openWindow).Gives {} fresh ∧
        report.metrics = fresh.metrics ∧ report.topPages = fresh.topPages ∧
        report.devices = fresh.devices ∧ report.warnings = fresh.warnings := by
  intro store started
  have hstore : store.AnswersFrom {} := Store.answersFrom_failing _ _
  have hstill : ∀ now, .move now ∉ retypingTurns := by simp [retypingTurns]
  have hhashes : Cohort.HashesTell ([pathCohort (.number (.int 1))] ++
      retypingTurns.filterMap Turn.edited?) := by
    refine Cohort.hashesTell_of_nodup ?_ (by rw [hashes_pathCohort]; decide)
    change [pathCohort (.number (.int 1)), pathCohort (.number (.float 1)),
      pathCohort (.number (.int 1))] ⊆ _
    simp [retyped]
  have hrequests : (exchanges store retypingTurns pathService started).map Exchange.request =
      List.replicate 3 (.cohortMetrics "s" "c" {}) := requests_exchanges _ _ _ _
  refine ⟨hstore, hstill, hhashes, hrequests, fun x hx => ?_⟩
  obtain ⟨hreports, -⟩ := reports_current_rules {} standardNormal [pathCohort (.number (.int 1))] []
    newYear ⟨200, .int 30, by decide⟩ (.int 0) {} store hstore 0 retypingTurns hstill hhashes
  obtain ⟨s, hrespond⟩ := answer_of_mem_exchanges hx
  have hrequest : x.request = .cohortMetrics "s" "c" {} :=
    List.eq_of_mem_replicate (hrequests ▸ List.mem_map_of_mem hx)
  obtain ⟨hconfig, v, hv, hheld⟩ := holds_pathCohort hx
  have hwindow : x.service.windowOf {} = .ok openWindow := by
    rw [Service.windowOf, hconfig]
    rfl
  obtain ⟨t, ht⟩ := Service.metrics_tasks hheld hwindow
  rw [hrequest, respond_of_tasks ht] at hrespond
  obtain ⟨c, w, report, hc, hw, hone, hfailed, hfresh⟩ :=
    hreports x hx "s" "c" {} _ hrequest hrespond
  obtain rfl : pathCohort v = c := Except.ok.inj (hheld.symm.trans hc)
  obtain rfl : openWindow = w := Except.ok.inj (hwindow.symm.trans hw)
  have hanswered : report.queryFailed = false := by
    by_contra htrouble
    obtain ⟨st, hnone⟩ := hfailed (by simpa using htrouble)
    obtain ⟨other, hother⟩ := pathCohort_answered hv st
    exact hnone other hother
  obtain ⟨fresh, hgives, hsame⟩ := hfresh hanswered
  exact ⟨_, report, fresh, hheld, hrespond.trans (congrArg _ hone), hanswered, hgives, hsame⟩

end Retyped

end Serving

end CohortAnalytics
