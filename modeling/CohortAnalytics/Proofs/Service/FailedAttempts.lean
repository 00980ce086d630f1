import CohortAnalytics.Proofs.Cache.Held
import CohortAnalytics.Proofs.Query.Failing
import CohortAnalytics.Proofs.Service.Failing

/-!
A store that fails in the middle of a computation. What was computed until then is not shown, the
failure is not kept, and the next attempt finds the cache as the failed one did.
-/

namespace CohortAnalytics

/-- Says what it is about and that the store has failed; everything else is as in an empty report. -/
def Report.IsBlank : Report → Prop
  | .cohort r => r = { cohort := r.cohort, queryFailed := true }
  | .comparison r => r = { queryFailed := true }
  | .experiment r => r = { id := r.id, name := r.name, status := r.status, startedAt := r.startedAt,
                           queryFailed := true }

theorem Subject.isBlank_failed (x : Subject) : x.failed.IsBlank := by
  cases x <;> rfl

def Request.isSingle : Request → Bool
  | .experimentsResults _ _ _ _ => false
  | _ => true

namespace Service

variable {s : Service} {r : Request} {x : Subject} {t : ReportTask}

theorem subjects_of_isSingle (hr : r.isSingle = true) {xs : List Subject}
    (h : s.subjects r = .ok xs) : ∃ x, xs = [x] := by
  cases subjects_inv h with
  | metrics hc hw => exact ⟨_, rfl⟩
  | comparison hcs hw => exact ⟨_, rfl⟩
  | experiment he hw => exact ⟨_, rfl⟩
  | experiments hes hw => cases hr

theorem tasks_of_isSingle (hr : r.isSingle = true) {ts : List ReportTask} (h : s.tasks r = .ok ts) :
    ∃ x t, ts = [t] ∧ s.Asks r x t := by
  rw [tasks_eq] at h
  obtain ⟨xs, hxs, h⟩ := bind_ok h
  obtain ⟨x, rfl⟩ := subjects_of_isSingle hr hxs
  obtain _ | ⟨ht, _ | _⟩ := mapM_ok h
  exact ⟨x, _, rfl, [x], hxs, List.mem_singleton_self x, ht⟩

theorem Asks.failed_eq (h : s.Asks r x t) : t.failed = x.failed := by
  obtain ⟨xs, -, -, ht⟩ := h
  obtain ⟨key, -, rfl⟩ := Subject.task_inv ht
  rfl

theorem Asks.compute_eq (h : s.Asks r x t) : t.compute = x.inquiry s := by
  obtain ⟨xs, -, -, ht⟩ := h
  obtain ⟨key, -, rfl⟩ := Subject.task_inv ht
  rfl

end Service

namespace Serving

variable {c d : Cache Number Report} {service : Service} {r : Request} {t : ReportTask} {σ : Type}

/-- Some service comes to the report for a task of some request, on some store. -/
def Computed (report : Report) : Prop :=
  ∃ (service : Service) (r : Request) (ts : List ReportTask) (t : ReportTask) (σ : Type)
    (store : Store σ) (st : σ), service.tasks r = .ok ts ∧ t ∈ ts ∧
      (t.compute.run store st).outcome = .finished (.ok report)

theorem Computed.queryFailed {report : Report} (h : Computed report) :
    report.queryFailed = false := by
  obtain ⟨service, r, ts, t, σ, store, st, hts, ht, hrun⟩ := h
  obtain ⟨x, hx⟩ := Service.asks_of_mem_tasks hts ht
  rw [hx.compute_eq] at hrun
  exact Subject.queryFailed_of_run hrun

/-- A state of the cache under any callers, workers and owners, whose computations are those of the
service. -/
inductive Reachable : Cache Number Report → Prop
  | initial (limits : CacheLimits Number) (now : Number) : Reachable { limits, now }
  | step {c d : Cache Number Report} {s : CacheStep Number Report} (h : Reachable c)
      (hs : c.step? s = some d) (hfinish : ∀ i report, s = .finish i (.ok report) → Computed report) :
      Reachable d

theorem Reachable.run (h : Reachable c) {steps : List (CacheStep Number Report)}
    (hs : c.run? steps = some d)
    (hfinish : ∀ i report, .finish i (.ok report) ∈ steps → Computed report) : Reachable d := by
  refine Cache.run_induction
    (P := fun taken d => (∀ i report, .finish i (.ok report) ∈ taken → Computed report) → Reachable d)
    (fun _ => h) (fun taken b s d _ hstep ih hall => ?_) hs hfinish
  refine (ih fun i report hi => hall i report (List.mem_append_left _ hi)).step hstep ?_
  rintro i report rfl
  exact hall i report (by simp)

theorem Reachable.sound (h : Reachable c) : c.Sound := by
  induction h with
  | initial limits now => exact Cache.sound_initial limits now
  | step _ hs _ ih => exact ih.step hs

theorem Reachable.allHold (h : Reachable c) : c.AllHold fun report => report.queryFailed = false := by
  induction h with
  | initial limits now => exact ⟨fun e he => (nomatch he), fun f hf => (nomatch hf)⟩
  | step h hs hfinish ih =>
    exact ih.step h.sound hs fun i report hi => (hfinish i report hi).queryFailed

theorem Reachable.nodup_names (h : Reachable c) : (Entries.names c.entries).Nodup := by
  induction h with
  | initial limits now => exact List.nodup_nil
  | step _ hs _ ih => exact Cache.nodup_step ih hs

theorem Reachable.serve {s : Serving σ} (h : Reachable s.cache) {ts : List ReportTask}
    (hts : service.tasks r = .ok ts) (ht : t ∈ ts) (store : Store σ) :
    Reachable (s.serve store t).2.cache := by
  refine Cache.call_keeps (fun step hstep c d hc hd => hc.step hd ?_) h
  rintro i report rfl
  exact ⟨service, r, ts, t, σ, store, s.store, hts, ht, hstep⟩

theorem Reachable.serveAll {s : Serving σ} (h : Reachable s.cache) {ts us : List ReportTask}
    (hts : service.tasks r = .ok ts) (hus : ∀ t ∈ us, t ∈ ts) (store : Store σ) :
    Reachable (s.serveAll store us).2.cache := by
  induction us generalizing s with
  | nil => exact h
  | cons t rest ih =>
    exact ih (h.serve hts (hus t (by simp)) store) fun u hu => hus u (List.mem_cons_of_mem _ hu)

theorem Reachable.respond {s : Serving σ} (h : Reachable s.cache) (service : Service) (r : Request)
    (store : Store σ) : Reachable (s.respond service store r).2.cache := by
  unfold Serving.respond
  cases hts : service.tasks r with
  | error e => exact h
  | ok ts => exact h.serveAll hts (fun _ ht => ht) store

theorem Reachable.respondAll {s : Serving σ} (h : Reachable s.cache) (service : Service)
    (store : Store σ) (rs : List Request) : Reachable (s.respondAll service store rs).2.cache := by
  induction rs generalizing s with
  | nil => exact h
  | cons r rest ih =>
    have hfirst := h.respond service r store
    rw [Serving.respondAll]
    generalize s.respond service store r = served at hfirst
    obtain ⟨answer, s'⟩ := served
    cases answer with
    | error e => exact hfirst
    | ok reports => exact ih hfirst

/-- What a task shows that is not answered from the cache. -/
def shown (closed : Bool) (t : ReportTask) : Except Failure Report → Report
  | .ok report => if closed then t.failed else report
  | .error _ => t.failed

theorem respond_missed (htasks : service.tasks r = .ok [t]) (hidle : c.inFlight = [])
    (hmiss : (c.get t.key).1 = none) {store : Store σ} {st : σ} {result : Except Failure Report}
    (hrun : (t.compute.run store st).outcome = .finished result) :
    ∃ after : Serving σ,
      respond service store r { cache := c, store := st } =
        (.ok [shown c.closed t result], after) ∧
      after.cache.inFlight = [] ∧ after.cache.closed = c.closed ∧ after.cache.now = c.now ∧
      ((∃ e, result = .error e) → after.cache.entries = (c.entries.look c.now t.key).2) := by
  have hlook : c.entries.look c.now t.key = (none, (c.entries.look c.now t.key).2) :=
    Prod.ext (Cache.get_eq_none_iff.mp hmiss) rfl
  have hcompute : inquire store t.compute (st, []) = (.finished result,
      (t.compute.run store st).state, [] ++ (t.compute.run store st).asked) := by
    rw [inquire, hrun]
  obtain ⟨hanswer, htable, hclosed, hentries⟩ :=
    Cache.call_missed hidle hlook (some (.float t.ttl)) hcompute
  refine ⟨(serve store t { cache := c, store := st }).2, ?_, htable, hclosed,
    Cache.call_now _ _ _ _ _, hentries⟩
  rw [respond_single htasks]
  suffices hshown : (serve store t { cache := c, store := st }).1 = shown c.closed t result by
    rw [hshown]
  rw [serve, hanswer]
  cases c.closed with
  | true => cases result <;> rfl
  | false =>
    cases result with
    | ok report => rfl
    | error e => cases e <;> rfl

/-- A request has failed and it shows, but only in its answer. -/
structure IsTraceless (service : Service) (r : Request) (x : Subject) (c : Cache Number Report)
    (answer : Except RequestError (List Report)) (after : Cache Number Report) : Prop where
  answer : answer = .ok [x.failed]
  blank : x.failed.IsBlank
  inFlight : after.inFlight = []
  unexpired : after.entries.sweep after.now = c.entries.sweep c.now
  retried : ∀ (σ : Type) (store : Store σ) (st : σ), store.Replies →
    (respond service store r { cache := after, store := st }).1 =
      (respond service store r { cache := c, store := st }).1

theorem isTraceless_of_failed {x : Subject} (hx : service.Asks r x t)
    (htasks : service.tasks r = .ok [t]) (hnames : (Entries.names c.entries).Nodup)
    (hidle : c.inFlight = []) (hmiss : (c.get t.key).1 = none) {store : Store σ} {st : σ}
    {f : Failure} (hrun : (t.compute.run store st).outcome = .finished (.error f)) :
    IsTraceless service r x c (respond service store r { cache := c, store := st }).1
      (respond service store r { cache := c, store := st }).2.cache := by
  obtain ⟨after, hrespond, htable, hclosed, hnow, hentries⟩ :=
    respond_missed htasks hidle hmiss hrun
  replace hentries := hentries ⟨f, rfl⟩
  rw [hrespond]
  refine ⟨?_, x.isBlank_failed, htable, ?_, fun σ store st hreplies => ?_⟩
  · rw [← hx.failed_eq]
    rfl
  · dsimp only
    rw [hentries, hnow]
    exact CacheTable.sweep_look hnames c.now t.key
  · -- Both attempts miss, and what a miss shows depends on the store alone.
    obtain ⟨result, hresult⟩ := Inquiry.run_replies hreplies t.compute st
    have hagain : (after.cache.get t.key).1 = none := by
      rw [Cache.get_eq_none_iff, CacheTable.look_of_find?_none]
      rw [hentries]
      exact CacheTable.find?_look_none (Cache.get_eq_none_iff.mp hmiss)
    obtain ⟨_, hfirst, -⟩ := respond_missed htasks hidle hmiss hresult
    obtain ⟨_, hsecond, -⟩ := respond_missed htasks htable hagain hresult
    rw [hfirst, hsecond, hclosed]

/-- No failure is ever kept, whatever is asked; and wherever the store fails a computation, its
answer shows nothing and the cache is left to the next attempt as it was. -/
theorem failure_is_traceless {c : Cache Number Report} (hc : Reachable c) :
    (∀ e ∈ c.entries, e.2.value.queryFailed = false) ∧
      (∀ (service : Service) (σ : Type) (store : Store σ) (rs : List Request) (s : Serving σ),
        s.cache = c → Reachable (s.respondAll service store rs).2.cache) ∧
      ∀ (service : Service) (r : Request) (ts : List ReportTask), r.isSingle = true →
        service.tasks r = .ok ts → ∃ x t, ts = [t] ∧ service.Asks r x t ∧
          (c.inFlight = [] → (c.get t.key).1 = none →
            ∀ (σ : Type) (store : Store σ) (st : σ) (position : ℕ) (f : Failure),
              position < (t.compute.run store st).asked.length →
              IsTraceless service r x c
                (respond service (store.raising position f) r { cache := c, store := (0, st) }).1
                (respond service (store.raising position f) r
                  { cache := c, store := (0, st) }).2.cache) := by
  refine ⟨fun e he => hc.allHold.kept e he, ?_, fun service r ts hr hts => ?_⟩
  · rintro service σ store rs s rfl
    exact hc.respondAll service store rs
  · obtain ⟨x, t, rfl, hx⟩ := Service.tasks_of_isSingle hr hts
    refine ⟨x, t, rfl, hx, fun hidle hmiss σ store st position f hposition => ?_⟩
    exact isTraceless_of_failed hx hts hc.nodup_names hidle hmiss
      (Inquiry.run_raising store f t.compute st hposition)

/-- A flight of another key has been left and still runs, and the second query of a cohort runs out
of time. -/
theorem failure_is_traceless_deserted :
    let service : Service := { catalog := Catalog.make [⟨"c", "shop", "all", []⟩] [], now := default }
    let r : Request := .cohortMetrics "shop" "c"
      { start := some (.text "2024-01-01"), finish := some (.text "2024-01-02") }
    ∃ (c : Cache Number Report) (x : Subject) (t : ReportTask),
      ({ limits := ⟨2, .int 60, by decide⟩, now := .int 0 } : Cache Number Report).run?
        [.request "other" none, .submit 0, .start 0, .giveUp 0, .detach 0] = some c ∧
      Reachable c ∧ service.tasks r = .ok [t] ∧ c.inFlight = [] ∧ (c.get t.key).1 = none ∧
      1 < (t.compute.run Store.script []).asked.length ∧
      IsTraceless service r x c
        (respond service (Store.script.raising 1 .outOfTime) r { cache := c, store := (0, []) }).1
        (respond service (Store.script.raising 1 .outOfTime) r
          { cache := c, store := (0, []) }).2.cache := by
  intro service r
  have hdeserted : (({ limits := ⟨2, .int 60, by decide⟩, now := .int 0 } :
      Cache Number Report).run? [.request "other" none, .submit 0, .start 0, .giveUp 0,
        .detach 0]).map (fun c => (c.inFlight, c.entries.isEmpty)) = some ([], true) := by
    decide +kernel
  obtain ⟨c, hrun, hc⟩ := Option.map_eq_some_iff.mp hdeserted
  obtain ⟨hidle, hempty⟩ := Prod.mk.inj hc
  have hreachable : Reachable c := (Reachable.initial _ _).run hrun (by simp)
  have hasked : (service.subjects r).toOption.map (fun xs => xs.map fun x =>
      (x.site, ((x.inquiry service).run Store.script []).asked.length)) = some [("shop", 3)] := by
    decide +kernel
  obtain ⟨xs, hxs, hlength⟩ := Option.map_eq_some_iff.mp hasked
  obtain ⟨x, rfl, hx⟩ := List.map_eq_singleton_iff.mp hlength
  obtain ⟨hsite, hqueries⟩ := Prod.mk.inj hx
  obtain ⟨t, ht⟩ := Subject.task_ok service (x := x) (by rw [hsite]; decide)
  have hsubjects : service.subjects r = .ok [x] := by
    revert hxs
    cases service.subjects r <;> simp [Except.toOption]
  obtain ⟨htasks, hasks⟩ := Service.tasks_of_subjects hsubjects ht
  have hmiss : (c.get t.key).1 = none := by
    rw [Cache.get_eq_none_iff, List.isEmpty_iff.mp hempty]
    rfl
  have hcalls : 1 < (t.compute.run Store.script []).asked.length := by
    rw [hasks.compute_eq, hqueries]
    decide
  obtain ⟨-, -, htraceless⟩ := failure_is_traceless hreachable
  obtain ⟨y, u, hu, -, hfailed⟩ := htraceless service r [t] rfl htasks
  obtain rfl : t = u := by simpa using hu
  exact ⟨c, y, t, hrun, hreachable, htasks, hidle, hmiss, hcalls,
    hfailed hidle hmiss _ Store.script [] 1 .outOfTime hcalls⟩

end Serving

end CohortAnalytics
