import CohortAnalytics.Proofs.Query.Failing
import CohortAnalytics.Proofs.Query.Sent
import CohortAnalytics.Proofs.Service.Transparency

/-!
A service over a store that may fail. As long as nothing is kept, each task shows what it comes to on
the table or that its store has failed, and its report tells which; a computation that comes to a
report never says that its store has failed.
-/

namespace CohortAnalytics

namespace ReportTask

variable {table : EventTable} {t : ReportTask} {report : Report}

theorem fresh_of_gives (h : t.compute.Gives table report) : t.fresh table = report := by
  rw [fresh, show (t.compute.run Store.table table).outcome = _ from h]

/-- What a task shows, whether its store has answered or not. -/
def Shows (table : EventTable) (t : ReportTask) (r : Report) : Prop :=
  r = t.fresh table ∨ r = t.failed

/-- The task comes to a report on the table, and the report tells it from the failed one. -/
structure IsAnswered (table : EventTable) (t : ReportTask) : Prop where
  gives : t.compute.Gives table (t.fresh table)
  answered : (t.fresh table).queryFailed = false
  failed : t.failed.queryFailed = true

end ReportTask

namespace Subject

variable {s : Service}

theorem queryFailed_failed (x : Subject) : x.failed.queryFailed = true := by
  cases x <;> rfl

theorem task_ok (s : Service) {x : Subject} (hsite : x.site ≠ "") : ∃ t, x.task s = .ok t := by
  rw [task_eq, Service.keyOf, cacheKey?, if_neg hsite]
  exact ⟨_, rfl⟩

theorem isAnswered_of_gives {x : Subject} {t : ReportTask} (h : x.task s = .ok t)
    {table : EventTable} {report : Report} (hreport : (x.inquiry s).Gives table report)
    (hanswered : report.queryFailed = false) :
    t.IsAnswered table ∧ t.fresh table = report ∧ t.failed = x.failed := by
  obtain ⟨key, -, rfl⟩ := task_inv h
  have hfresh : ReportTask.fresh table ⟨key, x.ttl s.config, x.inquiry s, x.failed⟩ = report :=
    ReportTask.fresh_of_gives hreport
  exact ⟨⟨hfresh.symm ▸ hreport, hfresh.symm ▸ hanswered, x.queryFailed_failed⟩, hfresh, rfl⟩

end Subject

namespace Service

variable {s : Service}

theorem tasks_of_subjects {r : Request} {x : Subject} {t : ReportTask}
    (hsubjects : s.subjects r = .ok [x]) (htask : x.task s = .ok t) :
    s.tasks r = .ok [t] ∧ s.Asks r x t := by
  refine ⟨?_, [x], hsubjects, List.mem_singleton_self x, htask⟩
  rw [tasks_eq, hsubjects]
  change List.mapM (Subject.task s) [x] = _
  rw [List.mapM_cons, htask]
  rfl

/-- Tasks of different subjects have different keys. -/
theorem nodup_keys (hs : s.catalog.IsKeyed) {xs : List Subject} {ts : List ReportTask}
    (h : List.Forall₂ (fun x t => ∃ r, s.Asks r x t) xs ts) (hxs : xs.Nodup) :
    (ts.map ReportTask.key).Nodup := by
  induction h with
  | nil => exact List.nodup_nil
  | @cons x t xs ts hask hrest ih =>
    rw [List.nodup_cons] at hxs
    rw [List.map_cons, List.nodup_cons]
    refine ⟨?_, ih hxs.2⟩
    intro hmem
    obtain ⟨u, hu, hkey⟩ := List.mem_map.mp hmem
    obtain ⟨r, hx⟩ := hask
    obtain ⟨y, hy, r', hasky⟩ := exists_of_forall₂ hrest hu
    exact hxs.1 (hasky.eq_of_key hs hx hkey ▸ hy)

end Service

namespace Serving

variable {table : EventTable} {s : Serving ℕ} {done : List String}

/-- Nothing is under way, and reports are kept only under keys that have been asked for. -/
structure Cold (done : List String) (s : Serving ℕ) : Prop where
  idle : s.cache.IsIdle
  kept : s.cache.entries.Holds fun key _ => key ∈ done

/-- A task under a new key is computed, and its report tells whether one of its calls has failed. -/
theorem Cold.serve (h : s.Cold done) (failures : ℕ → Option Failure) {t : ReportTask}
    (hnew : t.key ∉ done) (ht : t.IsAnswered table) :
    ∃ shown s', s.serve (Store.failing table failures) t = (shown, s') ∧
      s'.Cold (done ++ [t.key]) ∧ s.store ≤ s'.store ∧ t.Shows table shown ∧
      (Untroubled failures s.store s'.store ↔ shown.queryFailed = false) := by
  have hnone : s.cache.entries.find? t.key = none :=
    Option.eq_none_iff_forall_ne_some.mpr fun e hfind =>
      hnew (h.kept _ (Entries.mem_of_find? hfind))
  have hlook := CacheTable.look_of_find?_none hnone s.cache.now
  obtain ⟨outcome, l, hle, hrun, hstate, hcases⟩ := ht.gives.run_failing failures s.store
  have hcompute : inquire (Store.failing table failures) t.compute (s.store, s.asked) =
      (.finished outcome, (l, s.asked ++
        (t.compute.run (Store.failing table failures) s.store).asked)) := by
    simp only [inquire, hrun, hstate]
  obtain ⟨hanswer, hserved, hidle, hentries⟩ :=
    Cache.call_computed h.idle hlook (some (.float t.ttl)) hcompute
  generalize hcall : s.cache.call t.key (some (.float t.ttl))
    (inquire (Store.failing table failures) t.compute) (s.store, s.asked) = served
    at hanswer hserved hidle hentries
  have hleft : (s.serve (Store.failing table failures) t).2 =
      { cache := served.cache, store := l, asked := served.state.2 } := by
    rw [Serving.serve, hcall]
    cases served
    cases hserved
    rfl
  have hkept : s.cache.entries.Holds fun key _ => key ∈ done ++ [t.key] :=
    fun e he => List.mem_append_left _ (h.kept e he)
  refine ⟨(s.serve (Store.failing table failures) t).1,
    (s.serve (Store.failing table failures) t).2, rfl, ?_, hleft ▸ hle, ?_⟩
  · rw [hleft]
    refine ⟨hidle, ?_⟩
    rw [hentries]
    cases outcome with
    | error e => exact hkept
    | ok r => exact hkept.store _ (List.mem_append_right _ (List.mem_singleton_self _))
  · rw [hleft]
    rcases hcases with ⟨hclear, rfl⟩ | ⟨htrouble, e, rfl⟩
    · have hshown : (s.serve (Store.failing table failures) t).1 = t.fresh table := by
        rw [Serving.serve, hcall, hanswer]
        rfl
      rw [hshown]
      exact ⟨.inl rfl, iff_of_true hclear ht.answered⟩
    · have hshown : (s.serve (Store.failing table failures) t).1 = t.failed := by
        rw [Serving.serve, hcall, hanswer]
        cases e <;> rfl
      rw [hshown]
      exact ⟨.inr rfl, iff_of_false htrouble (by simp [ht.failed])⟩

theorem Cold.serveAll (h : s.Cold done) (failures : ℕ → Option Failure) {ts : List ReportTask}
    (hkeys : (done ++ ts.map ReportTask.key).Nodup) (hts : ∀ t ∈ ts, t.IsAnswered table) :
    ∃ reports s', s.serveAll (Store.failing table failures) ts = (reports, s') ∧
      s'.Cold (done ++ ts.map ReportTask.key) ∧ s.store ≤ s'.store ∧
      List.Forall₂ (ReportTask.Shows table) ts reports ∧
      (Untroubled failures s.store s'.store ↔ ∀ r ∈ reports, r.queryFailed = false) := by
  induction ts generalizing s done with
  | nil => exact ⟨[], s, rfl, by simpa using h, le_rfl, .nil, by simp [untroubled_self]⟩
  | cons t rest ih =>
    rw [List.map_cons] at hkeys
    have hnew : t.key ∉ done := fun hmem =>
      (List.nodup_append.mp hkeys).2.2 _ hmem _ List.mem_cons_self rfl
    obtain ⟨shown, middle, hserve, hmiddle, hle, hshown, hcalls⟩ :=
      h.serve failures hnew (hts t (by simp))
    obtain ⟨reports, s', hrest, hlast, hle', hall, hcalls'⟩ :=
      ih hmiddle (by simpa using hkeys) fun u hu => hts u (List.mem_cons_of_mem _ hu)
    refine ⟨shown :: reports, s', ?_, by simpa using hlast, hle.trans hle', .cons hshown hall, ?_⟩
    · rw [Serving.serveAll, hserve]
      dsimp only
      rw [hrest]
    · rw [untroubled_trans hle hle', hcalls, hcalls', List.forall_mem_cons]

variable {service : Service} {σ : Type}

theorem respond_of_tasks {r : Request} {ts : List ReportTask} (h : service.tasks r = .ok ts)
    (store : Store σ) (s : Serving σ) :
    s.respond service store r = (.ok (s.serveAll store ts).1, (s.serveAll store ts).2) := by
  rw [respond, h]

theorem respond_of_error {r : Request} {e : RequestError} (h : service.tasks r = .error e)
    (store : Store σ) (s : Serving σ) : s.respond service store r = (.error e, s) := by
  rw [respond, h]

theorem tasks_of_respond_error {r : Request} {e : RequestError} {store : Store σ} {s : Serving σ}
    (h : (s.respond service store r).1 = .error e) : service.tasks r = .error e := by
  cases htasks : service.tasks r with
  | error cause =>
    rw [respond_of_error htasks] at h
    rw [Except.error.inj h]
  | ok ts =>
    rw [respond_of_tasks htasks] at h
    cases h

theorem respond_single {r : Request} {t : ReportTask} (h : service.tasks r = .ok [t])
    (store : Store σ) (s : Serving σ) :
    s.respond service store r = (.ok [(s.serve store t).1], (s.serve store t).2) :=
  respond_of_tasks h store s

/-- Requests of one task each are answered like their tasks in a row. -/
theorem respondAll_of_tasks {rs : List Request} {ts : List ReportTask}
    (h : List.Forall₂ (fun r t => service.tasks r = .ok [t]) rs ts) (store : Store σ)
    (s : Serving σ) :
    s.respondAll service store rs =
      (.ok ((s.serveAll store ts).1.map ([·])), (s.serveAll store ts).2) := by
  induction h generalizing s with
  | nil => rfl
  | cons ht _ ih =>
    rw [respondAll, respond_of_tasks ht]
    dsimp only
    rw [ih]
    rfl

end Serving

/-- What a computation has come to, if nothing has failed it. -/
def Outcome.value? {α : Type} : Outcome α → Option α
  | .finished (.ok a) => some a
  | _ => none

theorem Outcome.eq_of_value? {α : Type} {o : Outcome α} {a : α} (h : o.value? = some a) :
    o = .finished (.ok a) := by
  cases o with
  | finished r =>
    cases r with
    | ok b => rw [Option.some.inj h]
    | error e => cases h
  | stalled => cases h

variable {σ : Type} {store : Store σ} {st : σ}

open Inquiry

theorem CohortReport.compute_inv {config : Config} {now : Instant} {c : Cohort} {window : Window}
    {r : CohortReport} (h : ((compute config now c window).run store st).outcome = .finished (.ok r)) :
    r.cohort = c ∧ r.queryFailed = false := by
  obtain ⟨rules, -, h⟩ := run_bind_ok h
  obtain ⟨totals, -, h⟩ := run_bind_ok h
  obtain ⟨pages, -, h⟩ := run_bind_ok h
  obtain ⟨devices, -, h⟩ := run_bind_ok h
  obtain ⟨metrics, -, h⟩ := bind_ok (run_ofExcept_ok h)
  obtain ⟨pageRows, -, h⟩ := bind_ok h
  obtain ⟨deviceRows, -, h⟩ := bind_ok h
  obtain rfl := Except.ok.inj h
  exact ⟨rfl, rfl⟩

theorem CohortComparison.compute_inv {now : Instant} {site : String} {cs : List Cohort}
    {window : Window} {r : CohortComparison}
    (h : ((compute now site cs window).run store st).outcome = .finished (.ok r)) :
    r.queryFailed = false := by
  obtain ⟨rows, -, h⟩ := run_bind_ok h
  obtain rfl := Inquiry.run_pure_ok h
  rfl

namespace ExperimentReport

variable {config : Config} {curve : NormalCurve} {now : Instant} {e : Experiment}
  {r : ExperimentReport}

/-- What a report says of its variants as a whole. -/
structure Summarizes (curve : NormalCurve) (r : ExperimentReport) : Prop where
  totalUsers : r.totalUsers = sumUsers r.variants
  isSignificant : r.isSignificant = (Analysis.ofVariants curve r.variants).isSignificant
  confidence : r.confidence = (Analysis.ofVariants curve r.variants).confidence
  winner : r.winner = (Analysis.ofVariants curve r.variants).winner
  queryFailed : r.queryFailed = false

theorem ofCounts_inv {counts : Entries AggregateRow} {goals : List GoalRow}
    (h : ofCounts config curve now e counts goals = .ok r) :
    (variantOrder e counts).mapM (variantStats e counts goals) = .ok r.variants ∧
      r.Summarizes curve := by
  obtain ⟨variants, hvariants, h⟩ := bind_ok h
  obtain ⟨size, -, h⟩ := bind_ok h
  obtain ⟨days, -, h⟩ := bind_ok h
  obtain rfl := Except.ok.inj h
  exact ⟨hvariants, rfl, rfl, rfl, rfl, rfl⟩

theorem compute_inv {window : Window} {includeGoals : Bool}
    (h : ((compute config curve now e window includeGoals).run store st).outcome = .finished (.ok r)) :
    ∃ counts goals, ((variantCounts e.id e.goalEvent { site := e.site, window, now }).run
        store st).outcome = .finished (.ok counts) ∧
      ofCounts config curve now e counts goals = .ok r := by
  obtain ⟨counts, hcounts, h⟩ := run_bind_ok h
  cases includeGoals with
  | true =>
    obtain ⟨goals, -, h⟩ := run_bind_ok (f := fun goals =>
      Inquiry.ofExcept (ofCounts config curve now e counts goals)) h
    exact ⟨counts, goals, hcounts, run_ofExcept_ok h⟩
  | false => exact ⟨counts, [], hcounts, run_ofExcept_ok h⟩

end ExperimentReport

theorem Subject.queryFailed_of_run {service : Service} {x : Subject} {report : Report}
    (h : ((x.inquiry service).run store st).outcome = .finished (.ok report)) :
    report.queryFailed = false := by
  cases x with
  | metrics c w =>
    obtain ⟨r, hr, h⟩ := run_bind_ok h
    obtain rfl := Inquiry.run_pure_ok h
    exact (CohortReport.compute_inv hr).2
  | comparison site cs w =>
    obtain ⟨r, hr, h⟩ := run_bind_ok h
    obtain rfl := Inquiry.run_pure_ok h
    exact CohortComparison.compute_inv hr
  | experiment e w includeGoals =>
    obtain ⟨r, hr, h⟩ := run_bind_ok h
    obtain rfl := Inquiry.run_pure_ok h
    obtain ⟨counts, goals, -, hcounts⟩ := ExperimentReport.compute_inv hr
    exact (ExperimentReport.ofCounts_inv hcounts).2.queryFailed

end CohortAnalytics
