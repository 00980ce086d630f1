import CohortAnalytics.Proofs.Service.FailedAttempts

/-!
A service at work while its catalogue is edited, its clock moves and its cache is kept up. A report
says that its store has failed, or it is what the task of this request, or of an earlier one under
the same key, has come to.
-/

namespace CohortAnalytics

/-- What a task may show at a moment: that it has come to no report, the report that it has come to,
or the value of an entry that has not expired. -/
inductive ReportTask.Displays {σ : Type} (store : Store σ)
    (p : String × CacheEntry Number Report → Prop) (now : Number) (t : ReportTask) : Report → Prop
  | failed (st : σ) (h : ∀ report, (t.compute.run store st).outcome ≠ .finished (.ok report)) :
      Displays store p now t t.failed
  | computed {report : Report} (st : σ)
      (h : (t.compute.run store st).outcome = .finished (.ok report)) : Displays store p now t report
  | kept {e : CacheEntry Number Report} (h : p (t.key, e)) (hlive : e.isExpired now = false) :
      Displays store p now t e.value

namespace Serving

variable {σ : Type} {store : Store σ} {s : Serving σ} {t : ReportTask}
  {p : String × CacheEntry Number Report → Prop}

/-- The entry of a report that a task comes to at a moment. -/
def entryOf (now : Number) (t : ReportTask) (report : Report) : CacheEntry Number Report :=
  ⟨report, now, Clock.later now (.float t.ttl)⟩

/-- Nothing is under way, it is a given moment, and every entry has the property. -/
structure Keeps (p : String × CacheEntry Number Report → Prop) (now : Number) (s : Serving σ) :
    Prop where
  idle : s.cache.IsIdle
  now : s.cache.now = now
  kept : ∀ e ∈ s.cache.entries, p e

theorem Keeps.serve {now : Number} (h : s.Keeps p now)
    (hcomputed : ∀ report st, (t.compute.run store st).outcome = .finished (.ok report) →
      p (t.key, entryOf now t report)) :
    t.Displays store p now (s.serve store t).1 ∧ (s.serve store t).2.Keeps p now := by
  obtain ⟨hidle, rfl, hkept⟩ := h
  have hnow := Cache.call_now s.cache t.key (some (.float t.ttl)) (inquire store t.compute)
    (s.store, s.asked)
  have hlook : ∀ e ∈ (s.cache.entries.look s.cache.now t.key).2, p e := fun e he =>
    hkept e ((CacheTable.look_sublist _ _ _).subset he)
  obtain ⟨hserved, ⟨e, hfound, hanswer, hentries⟩ | ⟨report, hrun, hanswer, hentries⟩ |
    ⟨f, hnone, hanswer, hentries⟩⟩ := Cache.call_cases hidle t.key (some (.float t.ttl))
      (inquire store t.compute) (s.store, s.asked)
  · refine ⟨?_, hserved, hnow, fun d hd => hlook d (hentries ▸ hd)⟩
    rw [Serving.serve, hanswer]
    obtain ⟨hfind, hlive⟩ := CacheTable.of_look hfound
    exact .kept (hkept _ (Entries.mem_of_find? hfind)) hlive
  · refine ⟨?_, hserved, hnow, fun d hd => ?_⟩
    · rw [Serving.serve, hanswer]
      exact .computed s.store hrun
    · change d ∈ (Cache.call _ _ _ _ _).cache.entries at hd
      rw [hentries] at hd
      rcases Entries.mem_put ((CacheTable.store_sublist _ _ _ _).subset hd) with rfl | hd
      · exact hcomputed report s.store hrun
      · exact hlook d hd
  · refine ⟨?_, hserved, hnow, fun d hd => hlook d (hentries ▸ hd)⟩
    rw [Serving.serve, hanswer]
    exact .failed s.store hnone

theorem Keeps.serveAll {now : Number} (h : s.Keeps p now) {ts : List ReportTask}
    (hcomputed : ∀ t ∈ ts, ∀ report st, (t.compute.run store st).outcome = .finished (.ok report) →
      p (t.key, entryOf now t report)) :
    List.Forall₂ (ReportTask.Displays store p now) ts (s.serveAll store ts).1 ∧
      (s.serveAll store ts).2.Keeps p now := by
  induction ts generalizing s with
  | nil => exact ⟨.nil, h⟩
  | cons t rest ih =>
    obtain ⟨hfirst, hserved⟩ := h.serve (hcomputed t (by simp))
    obtain ⟨hrest, hlast⟩ := ih hserved fun u hu => hcomputed u (List.mem_cons_of_mem _ hu)
    exact ⟨.cons hfirst hrest, hlast⟩

theorem Keeps.apply {now : Number} (h : s.Keeps p now) (u : Upkeep) :
    ({ s with cache := u.apply s.cache } : Serving σ).Keeps p (u.apply s.cache).now := by
  have hsub : (u.apply s.cache).entries ⊆ s.cache.entries := by
    cases u with
    | tick now => exact List.Subset.refl _
    | get key => exact (CacheTable.look_sublist _ _ _).subset
    | clear => exact List.nil_subset _
    | _ => exact List.filter_sublist.subset
  refine ⟨⟨?_, ?_⟩, rfl, fun e he => h.kept e (hsub he)⟩
  · cases u <;> exact h.idle.inFlight
  · cases u <;> exact h.idle.closed

/-- A request, or what happens in between: a cohort takes the place of the one that goes by its id,
the service's clock moves, or something happens to the cache. -/
inductive Turn
  | request (r : Request)
  | edit (c : Cohort)
  | move (now : Instant)
  | upkeep (u : Upkeep)

/-- A request and its answer, with the service and the clock of the cache as they were then. -/
structure Exchange where
  service : Service
  clock : Number
  request : Request
  answer : Except RequestError (List Report)

def exchanges (store : Store σ) : List Turn → Service → Serving σ → List Exchange
  | [], _, _ => []
  | .request r :: rest, service, s =>
    let (answer, after) := s.respond service store r
    ⟨service, s.cache.now, r, answer⟩ :: exchanges store rest service after
  | .edit c :: rest, service, s =>
    exchanges store rest { service with catalog := service.catalog.addCohort c } s
  | .move now :: rest, service, s => exchanges store rest { service with now } s
  | .upkeep u :: rest, service, s =>
    exchanges store rest service { s with cache := u.apply s.cache }

def Turn.request? : Turn → Option Request
  | .request r => some r
  | _ => none

theorem exchanges_request (store : Store σ) (r : Request) (rest : List Turn) (service : Service)
    (s : Serving σ) : exchanges store (.request r :: rest) service s =
      ⟨service, s.cache.now, r, (s.respond service store r).1⟩ ::
        exchanges store rest service (s.respond service store r).2 := rfl

/-- What an exchange may leave in the cache: what a task of its request comes to, for the task's
time from the moment of the exchange on. -/
def Exchange.Leaves (store : Store σ) (y : Exchange) (e : String × CacheEntry Number Report) : Prop :=
  ∃ x t report st, y.service.Asks y.request x t ∧
    (t.compute.run store st).outcome = .finished (.ok report) ∧ e = (t.key, entryOf y.clock t report)

/-- Tasks of the request show what they come to, or what one of the exchanges has left. -/
def Exchange.Follows (store : Store σ) (past : List Exchange) (x : Exchange) : Prop :=
  ∀ reports, x.answer = .ok reports → ∃ ts, x.service.tasks x.request = .ok ts ∧
    List.Forall₂ (ReportTask.Displays store (fun e => ∃ y ∈ past, y.Leaves store e) x.clock) ts reports

theorem Keeps.mono {p q : String × CacheEntry Number Report → Prop} {now : Number}
    (h : s.Keeps p now) (hpq : ∀ e, p e → q e) : s.Keeps q now :=
  ⟨h.idle, h.now, fun e he => hpq e (h.kept e he)⟩

theorem follows_respond {past : List Exchange}
    (h : s.Keeps (fun e => ∃ y ∈ past, y.Leaves store e) s.cache.now) (service : Service)
    (r : Request) :
    let x : Exchange := ⟨service, s.cache.now, r, (s.respond service store r).1⟩
    x.Follows store (past ++ [x]) ∧ (s.respond service store r).2.Keeps
      (fun e => ∃ y ∈ past ++ [x], y.Leaves store e) s.cache.now := by
  intro x
  have hpast : s.Keeps (fun e => ∃ y ∈ past ++ [x], y.Leaves store e) s.cache.now :=
    h.mono fun e ⟨y, hy, he⟩ => ⟨y, List.mem_append_left _ hy, he⟩
  cases htasks : service.tasks r with
  | error e =>
    have hrespond : s.respond service store r = (.error e, s) := by rw [respond, htasks]
    rw [hrespond]
    refine ⟨fun reports hreports => ?_, hpast⟩
    have hanswer : x.answer = .error e := congrArg Prod.fst hrespond
    rw [hanswer] at hreports
    cases hreports
  | ok ts =>
    have hcomputed : ∀ t ∈ ts, ∀ report st,
        (t.compute.run store st).outcome = .finished (.ok report) →
          ∃ y ∈ past ++ [x], y.Leaves store (t.key, entryOf s.cache.now t report) := by
      intro t ht report st hrun
      obtain ⟨a, ha⟩ := Service.asks_of_mem_tasks htasks ht
      exact ⟨x, by simp, a, t, report, st, ha, hrun, rfl⟩
    obtain ⟨hall, hlast⟩ := hpast.serveAll hcomputed
    have hrespond := respond_of_tasks htasks store s
    rw [hrespond]
    refine ⟨fun reports hreports => ⟨ts, htasks, ?_⟩, hlast⟩
    have hanswer : x.answer = .ok (s.serveAll store ts).1 := congrArg Prod.fst hrespond
    obtain rfl := Except.ok.inj (hanswer.symm.trans hreports)
    exact hall

/-- Whatever happens in between, a request shows what it comes to or what an exchange until then has
left. -/
theorem follows_exchanges {past : List Exchange} {now : Number}
    (h : s.Keeps (fun e => ∃ y ∈ past, y.Leaves store e) now) {turns : List Turn}
    {service : Service} {before after : List Exchange} {x : Exchange}
    (hx : exchanges store turns service s = before ++ x :: after) :
    x.Follows store (past ++ before ++ [x]) := by
  induction turns generalizing past now service s before with
  | nil => exact absurd hx (List.append_ne_nil_of_right_ne_nil _ (List.cons_ne_nil _ _)).symm
  | cons turn rest ih =>
    cases turn with
    | request r =>
      obtain rfl := h.now
      obtain ⟨hfollows, hkeeps⟩ := follows_respond h service r
      rw [exchanges_request] at hx
      cases before with
      | nil =>
        obtain ⟨rfl, -⟩ := List.cons.inj hx
        rw [List.append_nil]
        exact hfollows
      | cons y before =>
        obtain ⟨rfl, hrest⟩ := List.cons.inj hx
        have hlast := ih hkeeps hrest
        rwa [List.append_assoc past] at hlast
    | edit c => exact ih h hx
    | move now => exact ih h hx
    | upkeep u => exact ih (h.apply u) hx

/-- What holds of the service at first and is kept by every edit and every move holds at each
exchange. -/
theorem service_of_mem_exchanges {q : Service → Prop} {turns : List Turn} {service : Service}
    (h : q service) (hedit : ∀ c service, .edit c ∈ turns → q service →
      q { service with catalog := service.catalog.addCohort c })
    (hmove : ∀ now service, .move now ∈ turns → q service → q { service with now })
    {x : Exchange} (hx : x ∈ exchanges store turns service s) : q x.service := by
  induction turns generalizing service s with
  | nil => cases hx
  | cons turn rest ih =>
    have hedit' := fun c service hc => hedit c service (List.mem_cons_of_mem _ hc)
    have hmove' := fun now service hnow => hmove now service (List.mem_cons_of_mem _ hnow)
    cases turn with
    | request r =>
      rcases List.mem_cons.mp hx with rfl | hx
      · exact h
      · exact ih h hedit' hmove' hx
    | edit c => exact ih (hedit c service (by simp) h) hedit' hmove' hx
    | move now => exact ih (hmove now service (by simp) h) hedit' hmove' hx
    | upkeep u => exact ih h hedit' hmove' hx

/-- Requests are answered one after the other. -/
theorem requests_exchanges (store : Store σ) (turns : List Turn) (service : Service)
    (s : Serving σ) :
    (exchanges store turns service s).map Exchange.request = turns.filterMap Turn.request? := by
  induction turns generalizing service s with
  | nil => rfl
  | cons turn rest ih =>
    cases turn with
    | request r => exact congrArg (r :: ·) (ih _ _)
    | edit c => exact ih _ _
    | move now => exact ih _ _
    | upkeep u => exact ih _ _

theorem answer_of_mem_exchanges {turns : List Turn} {service : Service} {x : Exchange}
    (hx : x ∈ exchanges store turns service s) :
    ∃ s' : Serving σ, x.answer = (s'.respond x.service store x.request).1 := by
  induction turns generalizing service s with
  | nil => cases hx
  | cons turn rest ih =>
    cases turn with
    | request r =>
      rcases List.mem_cons.mp hx with rfl | hx
      · exact ⟨s, rfl⟩
      · exact ih hx
    | edit c => exact ih hx
    | move now => exact ih hx
    | upkeep u => exact ih hx

end Serving

end CohortAnalytics
