import CohortAnalytics.Cache.Call
import CohortAnalytics.Proofs.Cache.Soundness

/-!
A request of a cache with nothing under way: a value that is kept is the answer, and otherwise the
computation runs once, its result is the answer, and a value is kept.
-/

namespace CohortAnalytics

namespace Cache

variable {τ V σ : Type} {c : Cache τ V} {i k : ℕ} {f : Flight τ V} {a : Caller V}

theorem flights_setStage (h : c.flights[i]? = some f) (stage : FlightStage τ V) :
    (c.setStage i stage).flights[i]? = some { f with stage } := by
  simp [setStage, modifyFlight, h]

theorem callers_setCaller (h : c.callers[k]? = some a) (b : Caller V) :
    (c.setCaller k b).callers[k]? = some b := by
  have hlt : k < c.callers.length := (List.getElem?_eq_some_iff.mp h).1
  simp [setCaller, hlt]

theorem dropFlight_eq (c : Cache τ V) (key : String) (i : ℕ) :
    c.dropFlight key i = { c with
      inFlight := if c.inFlight.find? key = some i then c.inFlight.remove key else c.inFlight } := by
  unfold dropFlight
  split <;> rfl

/-- The flight of a key that was looked for in vain runs, and its caller waits for it. -/
structure Departed (c b : Cache τ V) (key : String) (ttl : Option τ)
    (entries : CacheTable τ V) : Prop where
  flight : b.flights[c.flights.length]? =
    some { key, ttl := ttl.getD c.limits.defaultTtl, stage := .running }
  caller : b.callers[c.callers.length]? = some (.waiting c.flights.length)
  inFlight : b.inFlight = [(key, c.flights.length)]
  closed : b.closed = false
  now : b.now = c.now
  limits : b.limits = c.limits
  entries : b.entries = entries

theorem Departed.dropFlight {b : Cache τ V} {key : String} {ttl : Option τ}
    {entries : CacheTable τ V} (h : Departed c b key ttl entries) :
    (b.dropFlight key c.flights.length).inFlight = [] := by
  rw [dropFlight_eq]
  simp [h.inFlight, Entries.find?, Entries.remove]

theorem Departed.isRunning {b : Cache τ V} {key : String} {ttl : Option τ}
    {entries : CacheTable τ V} (h : Departed c b key ttl entries) :
    b.isRunning c.flights.length = true := by
  rw [Cache.isRunning, h.flight]
  rfl

variable [Clock τ]

theorem attempt_some {d : Cache τ V} {s : CacheStep τ V} (h : c.step? s = some d)
    (rest : List (CacheStep τ V)) : c.attempt (s :: rest) = d.attempt rest := by
  rw [attempt, List.foldl_cons, h, Option.getD_some, attempt]

theorem attempt_none {s : CacheStep τ V} (h : c.step? s = none) (rest : List (CacheStep τ V)) :
    c.attempt (s :: rest) = c.attempt rest := by
  rw [attempt, List.foldl_cons, h, Option.getD_none, attempt]

theorem attempt_append (c : Cache τ V) (steps more : List (CacheStep τ V)) :
    c.attempt (steps ++ more) = (c.attempt steps).attempt more := List.foldl_append

theorem attempt_keeps {q : Cache τ V → Prop} {steps : List (CacheStep τ V)}
    (hstep : ∀ s ∈ steps, ∀ c d, q c → c.step? s = some d → q d) (h : q c) : q (c.attempt steps) := by
  induction steps generalizing c with
  | nil => exact h
  | cons s rest ih =>
    have hrest := fun s' hs' => hstep s' (List.mem_cons_of_mem _ hs')
    cases hs : c.step? s with
    | none =>
      rw [attempt_none hs]
      exact ih hrest h
    | some d =>
      rw [attempt_some hs]
      exact ih hrest (hstep s (by simp) c d h hs)

theorem attempt_departing (hclosed : c.closed = false) (ha : c.callers[k]? = some (.submitting i))
    (hf : c.flights[i]? = some f) (hcancelled : f.cancelled = false) :
    c.attempt [.submit k, .start i] =
      ((c.setStage i .queued).setCaller k (.waiting i)).setStage i .running := by
  have hsubmit : c.step? (.submit k) = some ((c.setStage i .queued).setCaller k (.waiting i)) := by
    simp [step?, submit?, ha, hclosed]
  have hqueued : ((c.setStage i .queued).setCaller k (.waiting i)).flights[i]? =
      some { f with stage := .queued } := flights_setStage hf _
  have hstart : ((c.setStage i .queued).setCaller k (.waiting i)).step? (.start i) =
      some (((c.setStage i .queued).setCaller k (.waiting i)).setStage i .running) := by
    simp [step?, start?, hqueued, hcancelled]
  rw [attempt_some hsubmit, attempt_some hstart]
  rfl

/-- The entries once a computation has ended: a value is kept, a failure is not. -/
def keeping (c : Cache τ V) (key : String) (ttl : τ) : Except Failure V → CacheTable τ V
  | .ok v => (c.entries.store c.limits.capacity key ⟨v, c.now, Clock.later c.now ttl⟩).1
  | .error _ => c.entries

structure Landed (c d : Cache τ V) (i : ℕ) (f : Flight τ V) (r : Except Failure V) : Prop where
  flight : d.flights[i]? = some { f with stage := .done r }
  callers : d.callers = c.callers
  inFlight : d.inFlight = (c.dropFlight f.key i).inFlight
  closed : d.closed = c.closed
  entries : d.entries = c.keeping f.key f.ttl r

theorem attempt_settling {d : Cache τ V} {r : Except Failure V} (hf : d.flights[i]? = some f)
    (hsettle : c.step? (.settle i) = some (d.setStage i (.settled r))) :
    c.attempt [.settle i, .publish i] = (d.setStage i (.settled r)).setStage i (.done r) := by
  have hpublish : (d.setStage i (.settled r)).step? (.publish i) =
      some ((d.setStage i (.settled r)).setStage i (.done r)) := by
    simp [step?, publish?, flights_setStage hf]
  rw [attempt_some hsettle, attempt_some hpublish]
  rfl

theorem landed_ok (hf : c.flights[i]? = some f) (hrunning : f.stage = .running) (v : V) :
    Landed c (c.attempt (landing i (.ok v))) i f (.ok v) := by
  have hfinish : c.step? (.finish i (.ok v)) = some (c.setStage i (.returned v)) := by
    simp [step?, finish?, hf, hrunning]
  have hreturned := flights_setStage hf (.returned v)
  have hstamp : (c.setStage i (.returned v)).step? (.stamp i) =
      some ((c.setStage i (.returned v)).setStage i (.stamped v c.now)) := by
    simp only [step?, stamp?, hreturned]
    rfl
  have hstamped := flights_setStage hreturned (.stamped v c.now)
  generalize hd : (((c.setStage i (.returned v)).setStage i (.stamped v c.now)).commit f v
    c.now).dropFlight f.key i = d
  have hsettle : ((c.setStage i (.returned v)).setStage i (.stamped v c.now)).step? (.settle i) =
      some (d.setStage i (.settled (.ok v))) := by
    rw [← hd]
    simp only [step?, settle?, hstamped]
    rfl
  have hflight : d.flights[i]? = some { f with stage := .stamped v c.now } := by
    rw [← hd, dropFlight_flights]
    exact hstamped
  rw [landing, attempt_some hfinish, attempt_some hstamp, attempt_settling hflight hsettle]
  rw [dropFlight_eq] at hd
  subst hd
  exact ⟨flights_setStage (flights_setStage hflight _) _, rfl, by rw [dropFlight_eq]; rfl, rfl, rfl⟩

theorem landed_error (hf : c.flights[i]? = some f) (hrunning : f.stage = .running) (e : Failure) :
    Landed c (c.attempt (landing i (.error e))) i f (.error e) := by
  have hfinish : c.step? (.finish i (.error e)) = some (c.setStage i (.failed e)) := by
    simp [step?, finish?, hf, hrunning]
  have hfailed := flights_setStage hf (.failed e)
  have hstamp : (c.setStage i (.failed e)).step? (.stamp i) = none := by
    simp [step?, stamp?, hfailed]
  generalize hd : (c.setStage i (.failed e)).dropFlight f.key i = d
  have hsettle : (c.setStage i (.failed e)).step? (.settle i) =
      some (d.setStage i (.settled (.error e))) := by
    rw [← hd]
    simp only [step?, settle?, hfailed]
  have hflight : d.flights[i]? = some { f with stage := .failed e } := by
    rw [← hd, dropFlight_flights]
    exact hfailed
  rw [landing, attempt_some hfinish, attempt_none hstamp, attempt_settling hflight hsettle]
  rw [dropFlight_eq] at hd
  subst hd
  exact ⟨flights_setStage (flights_setStage hflight _) _, rfl, by rw [dropFlight_eq]; rfl, rfl, rfl⟩

/-- What a caller is told at the end of its flight: a wait that ran out inside the computation looks
like its own. -/
def delivered (key : String) : Except Failure V → Except Failure V
  | .error .outOfTime => .error (gaveUp key)
  | r => r

theorem delivered_of_ne (key : String) {r : Except Failure V} (hr : r ≠ .error .outOfTime) :
    delivered key r = r := by
  unfold delivered
  split
  · exact absurd rfl hr
  · rfl

theorem attempt_answered {r : Except Failure V} (ha : c.callers[k]? = some a)
    (hcollect : c.step? (.collect k) = some (c.setCaller k (.answered r))) :
    c.attempt [.collect k, .detach k, .cancelToken k] = c.setCaller k (.answered r) := by
  have hanswered := callers_setCaller ha (.answered r)
  have hdetach : (c.setCaller k (.answered r)).step? (.detach k) = none := by
    simp [step?, detach?, hanswered]
  have hcancel : (c.setCaller k (.answered r)).step? (.cancelToken k) = none := by
    simp [step?, cancelToken?, hanswered]
  rw [attempt_some hcollect, attempt_none hdetach, attempt_none hcancel]
  rfl

theorem attempt_outOfTime (ha : c.callers[k]? = some (.waiting i)) (hf : c.flights[i]? = some f)
    (hdone : f.stage = .done (.error .outOfTime)) :
    c.attempt [.collect k, .detach k, .cancelToken k] =
      ((c.setCaller k (.leaving i)).modifyFlight i fun g =>
        { g with waiters := f.waiters - 1 }).setCaller k (.answered (.error (gaveUp f.key))) := by
  have hcollect : c.step? (.collect k) = some (c.setCaller k (.leaving i)) := by
    simp [step?, collect?, ha, hf, hdone]
  have hleaving := callers_setCaller ha (.leaving i)
  have hflight : (c.setCaller k (.leaving i)).flights[i]? = some f := hf
  have hdetach : (c.setCaller k (.leaving i)).step? (.detach k) =
      some (((c.setCaller k (.leaving i)).modifyFlight i fun g =>
        { g with waiters := f.waiters - 1 }).setCaller k (.answered (.error (gaveUp f.key)))) := by
    simp [step?, detach?, hleaving, hflight, detach, hdone, FlightStage.isDone]
  have hanswered := callers_setCaller (c := (c.setCaller k (.leaving i)).modifyFlight i fun g =>
    { g with waiters := f.waiters - 1 }) hleaving (.answered (.error (gaveUp f.key)))
  rw [attempt_some hcollect, attempt_some hdetach,
    attempt_none (by simp [step?, cancelToken?, hanswered])]
  rfl

theorem attempt_arriving {r : Except Failure V} (ha : c.callers[k]? = some (.waiting i))
    (hf : c.flights[i]? = some f) (hdone : f.stage = .done r) :
    (c.attempt (arriving k i)).answer? k = some (delivered f.key r) ∧
      (c.attempt (arriving k i)).inFlight = c.inFlight ∧
      (c.attempt (arriving k i)).closed = c.closed ∧
      (c.attempt (arriving k i)).entries = c.entries := by
  have hsettle : c.step? (.settle i) = none := by simp [step?, settle?, hf, hdone]
  have hpublish : c.step? (.publish i) = none := by simp [step?, publish?, hf, hdone]
  have hanswer (d : Cache τ V) (b : Caller V) (r : Except Failure V) (hb : d.callers[k]? = some b) :
      (d.setCaller k (.answered r)).answer? k = some r := by
    simp [answer?, callers_setCaller hb]
  rw [arriving, attempt_none hsettle, attempt_none hpublish]
  -- A wait that ran out inside the computation sends the caller away like its own patience.
  by_cases hout : r = .error .outOfTime
  · subst hout
    rw [attempt_outOfTime ha hf hdone]
    exact ⟨hanswer _ _ _ (callers_setCaller ha _), rfl, rfl, rfl⟩
  · have hcollect : c.step? (.collect k) = some (c.setCaller k (.answered r)) := by
      simp only [step?, collect?, ha, hf, Option.map_some, hdone]
    rw [attempt_answered ha hcollect, delivered_of_ne f.key hout]
    exact ⟨hanswer _ _ _ ha, rfl, rfl, rfl⟩

/-- Nothing is under way, and more can be begun. -/
structure IsIdle (c : Cache τ V) : Prop where
  inFlight : c.inFlight = []
  closed : c.closed = false

/-- A value that is kept is the answer. -/
theorem call_found (h : c.IsIdle) {key : String} {e : CacheEntry τ V} {entries : CacheTable τ V}
    (hlook : c.entries.look c.now key = (some e, entries)) (ttl : Option τ)
    (compute : σ → Outcome V × σ) (s : σ) :
    (c.call key ttl compute s).answer = some (.ok e.value) ∧
      (c.call key ttl compute s).state = s ∧
      (c.call key ttl compute s).cache.IsIdle ∧
      (c.call key ttl compute s).cache.entries = entries := by
  generalize hd : ({ c with entries, hits := c.hits + 1 } : Cache τ V).addCaller
    (.answered (.ok e.value)) = d
  have hrequest : c.step? (.request key ttl) = some d := by
    simp [step?, request, get, hlook, ← hd]
  have hcaller : d.callers[c.callers.length]? = some (.answered (.ok e.value)) := by
    simp [← hd, addCaller]
  have hflight : d.flights[c.flights.length]? = none := by simp [← hd, addCaller]
  have hsubmit : d.step? (.submit c.callers.length) = none := by simp [step?, submit?, hcaller]
  have hstart : d.step? (.start c.flights.length) = none := by simp [step?, start?, hflight]
  have hattempt : c.attempt [.request key ttl, .submit c.callers.length, .start c.flights.length] =
      d := by
    rw [attempt_some hrequest, attempt_none hsubmit, attempt_none hstart]
    rfl
  have hcall : c.call key ttl compute s = ⟨some (.ok e.value), false, d, s⟩ := by
    simp [call, hattempt, isRunning, hflight, refusedFlight?, hcaller, answer?]
  rw [hcall, ← hd]
  exact ⟨rfl, rfl, ⟨h.inFlight, h.closed⟩, rfl⟩

/-- A flight has been registered for the key, which was looked for in vain. -/
structure Missed (c d : Cache τ V) (key : String) (ttl : Option τ) (entries : CacheTable τ V) :
    Prop where
  flight : d.flights[c.flights.length]? = some { key, ttl := ttl.getD c.limits.defaultTtl }
  caller : d.callers[c.callers.length]? = some (.submitting c.flights.length)
  inFlight : d.inFlight = [(key, c.flights.length)]
  closed : d.closed = c.closed
  now : d.now = c.now
  limits : d.limits = c.limits
  entries : d.entries = entries

theorem request_missed (hinFlight : c.inFlight = []) {key : String} {entries : CacheTable τ V}
    (hlook : c.entries.look c.now key = (none, entries)) (ttl : Option τ) :
    ∃ d, c.step? (.request key ttl) = some d ∧ Missed c d key ttl entries := by
  refine ⟨({ c with entries, misses := c.misses + 1 } : Cache τ V).register key ttl, ?_, ?_⟩
  · simp [step?, request, get, hlook, hinFlight, Entries.find?]
  · refine ⟨by simp [register], by simp [register], ?_, rfl, rfl, rfl, rfl⟩
    change c.inFlight.put key c.flights.length = _
    rw [hinFlight, Entries.put]

theorem departed_of_missed (h : c.IsIdle) {key : String} {entries : CacheTable τ V}
    (hlook : c.entries.look c.now key = (none, entries)) (ttl : Option τ) :
    Departed c (c.attempt [.request key ttl, .submit c.callers.length, .start c.flights.length])
      key ttl entries := by
  obtain ⟨d, hrequest, hmissed⟩ := request_missed h.inFlight hlook ttl
  have hclosed : d.closed = false := hmissed.closed.trans h.closed
  rw [attempt_some hrequest, attempt_departing hclosed hmissed.caller hmissed.flight rfl]
  exact ⟨flights_setStage (flights_setStage hmissed.flight _) _, callers_setCaller hmissed.caller _,
    hmissed.inFlight, hclosed, hmissed.now, hmissed.limits, hmissed.entries⟩

/-- Otherwise the result of the computation is, and a value is kept. -/
theorem call_computed (h : c.IsIdle) {key : String} {entries : CacheTable τ V}
    (hlook : c.entries.look c.now key = (none, entries)) (ttl : Option τ)
    {compute : σ → Outcome V × σ} {s s' : σ} {r : Except Failure V}
    (hcompute : compute s = (.finished r, s')) :
    (c.call key ttl compute s).answer = some (delivered key r) ∧
      (c.call key ttl compute s).state = s' ∧
      (c.call key ttl compute s).cache.IsIdle ∧
      (c.call key ttl compute s).cache.entries =
        ({ c with entries } : Cache τ V).keeping key (ttl.getD c.limits.defaultTtl) r := by
  have hdeparted := departed_of_missed h hlook ttl
  generalize hb : c.attempt [.request key ttl, .submit c.callers.length, .start c.flights.length] = b
    at hdeparted
  have hlanded : Landed b (b.attempt (landing c.flights.length r)) c.flights.length
      { key, ttl := ttl.getD c.limits.defaultTtl, stage := .running } r := by
    cases r with
    | ok v => exact landed_ok hdeparted.flight rfl v
    | error e => exact landed_error hdeparted.flight rfl e
  generalize hl : b.attempt (landing c.flights.length r) = l at hlanded
  obtain ⟨hanswer, hinFlight, hopen, hentries⟩ := attempt_arriving (c := l) (k := c.callers.length)
    (by rw [hlanded.callers]; exact hdeparted.caller) hlanded.flight rfl
  have hcall : c.call key ttl compute s =
      ⟨(l.attempt (arriving c.callers.length c.flights.length)).answer? c.callers.length, true,
        l.attempt (arriving c.callers.length c.flights.length), s'⟩ := by
    simp [call, hb, hdeparted.isRunning, hcompute, endFlight, attempt_append, hl]
  rw [hcall]
  refine ⟨hanswer, rfl, ⟨?_, ?_⟩, ?_⟩
  · rw [hinFlight, hlanded.inFlight]
    exact hdeparted.dropFlight
  · rw [hopen, hlanded.closed]
    exact hdeparted.closed
  · rw [hentries, hlanded.entries]
    cases r with
    | ok v => simp only [keeping, hdeparted.entries, hdeparted.limits, hdeparted.now]
    | error e => exact hdeparted.entries

/-- The owner of a flight that no worker takes settles it and takes its failure. -/
theorem attempt_refused {e : Failure} (ha : c.callers[k]? = some (.refused i))
    (hf : c.flights[i]? = some f) (hfailed : f.stage = .failed e) :
    (c.attempt (arriving k i)).answer? k = some (.error e) ∧
      (c.attempt (arriving k i)).inFlight = (c.dropFlight f.key i).inFlight ∧
      (c.attempt (arriving k i)).closed = c.closed ∧
      (c.attempt (arriving k i)).entries = c.entries := by
  generalize hd : c.dropFlight f.key i = d
  have hsettle : c.step? (.settle i) = some (d.setStage i (.settled (.error e))) := by
    rw [← hd]
    simp only [step?, settle?, hf, hfailed]
  have hlanded : d.flights[i]? = some f := by rw [← hd, dropFlight_flights, hf]
  generalize hb : (d.setStage i (.settled (.error e))).setStage i (.done (.error e)) = b
  have hdone : b.flights[i]? = some { f with stage := .done (.error e) } := by
    rw [← hb]
    exact flights_setStage (flights_setStage hlanded _) _
  have hwaits : b.callers[k]? = some (.refused i) := by
    rw [← hb, ← hd]
    exact (congrArg (fun l => l[k]?) (dropFlight_callers c f.key i)).trans ha
  have hcollect : b.step? (.collect k) = some (b.setCaller k (.answered (.error e))) := by
    simp only [step?, collect?, hwaits, hdone, Option.map_some]
  have harriving : c.attempt (arriving k i) = b.setCaller k (.answered (.error e)) := by
    rw [← attempt_answered hwaits hcollect, ← hb, ← attempt_settling hlanded hsettle,
      ← attempt_append]
    rfl
  rw [harriving, ← hb]
  refine ⟨by simp [answer?, callers_setCaller (hb ▸ hwaits)], rfl, ?_, ?_⟩
  · rw [← hd, dropFlight_eq]
    rfl
  · rw [← hd, dropFlight_eq]
    rfl

/-- A cache that is closed refuses what it would have to compute. -/
theorem call_refused (hinFlight : c.inFlight = []) (hclosed : c.closed = true) {key : String}
    {entries : CacheTable τ V} (hlook : c.entries.look c.now key = (none, entries))
    (ttl : Option τ) (compute : σ → Outcome V × σ) (s : σ) :
    (c.call key ttl compute s).answer = some (.error closedFailure) ∧
      (c.call key ttl compute s).cache.inFlight = [] ∧
      (c.call key ttl compute s).cache.closed = true ∧
      (c.call key ttl compute s).cache.entries = entries := by
  obtain ⟨d, hrequest, hmissed⟩ := request_missed hinFlight hlook ttl
  have hshut : d.closed = true := hmissed.closed.trans hclosed
  generalize hb : (d.setStage c.flights.length (.failed closedFailure)).setCaller c.callers.length
    (.refused c.flights.length) = b
  have hsubmit : d.step? (.submit c.callers.length) = some b := by
    simp [step?, submit?, hmissed.caller, hshut, ← hb]
  have hfailed : b.flights[c.flights.length]? = some
      { key, ttl := ttl.getD c.limits.defaultTtl, stage := .failed closedFailure } := by
    rw [← hb]
    exact flights_setStage hmissed.flight _
  have hrefused : b.callers[c.callers.length]? = some (.refused c.flights.length) := by
    rw [← hb]
    exact callers_setCaller hmissed.caller _
  have hattempt : c.attempt [.request key ttl, .submit c.callers.length, .start c.flights.length] =
      b := by
    rw [attempt_some hrequest, attempt_some hsubmit,
      attempt_none (by simp [step?, start?, hfailed])]
    rfl
  obtain ⟨hanswer, htable, hopen, hentries⟩ := attempt_refused hrefused hfailed rfl
  have hcall : c.call key ttl compute s =
      ⟨(b.attempt (arriving c.callers.length c.flights.length)).answer? c.callers.length, false,
        b.attempt (arriving c.callers.length c.flights.length), s⟩ := by
    simp [call, hattempt, isRunning, hfailed, FlightStage.isRunning, refusedFlight?, hrefused]
  have hmine : b.inFlight = [(key, c.flights.length)] := by
    rw [← hb]
    exact hmissed.inFlight
  rw [hcall]
  refine ⟨hanswer, ?_, ?_, ?_⟩
  · rw [htable, dropFlight_eq]
    simp [hmine, Entries.find?, Entries.remove]
  · rw [hopen, ← hb]
    exact hshut
  · rw [hentries, ← hb]
    exact hmissed.entries

/-- The answer to a request of a key that is not kept, and what is left of it. -/
theorem call_missed (hinFlight : c.inFlight = []) {key : String} {entries : CacheTable τ V}
    (hlook : c.entries.look c.now key = (none, entries)) (ttl : Option τ)
    {compute : σ → Outcome V × σ} {s s' : σ} {r : Except Failure V}
    (hcompute : compute s = (.finished r, s')) :
    (c.call key ttl compute s).answer =
        some (if c.closed then .error closedFailure else delivered key r) ∧
      (c.call key ttl compute s).cache.inFlight = [] ∧
      (c.call key ttl compute s).cache.closed = c.closed ∧
      ((∃ e, r = .error e) → (c.call key ttl compute s).cache.entries = entries) := by
  by_cases hclosed : c.closed = true
  · obtain ⟨hanswer, htable, hopen, hentries⟩ := call_refused hinFlight hclosed hlook ttl compute s
    rw [hclosed]
    exact ⟨hanswer, htable, hopen, fun _ => hentries⟩
  · replace hclosed : c.closed = false := by simpa using hclosed
    obtain ⟨hanswer, -, hidle, hentries⟩ := call_computed ⟨hinFlight, hclosed⟩ hlook ttl hcompute
    rw [hclosed]
    refine ⟨hanswer, hidle.inFlight, hidle.closed, ?_⟩
    rintro ⟨e, rfl⟩
    exact hentries

/-- The only caller of a flight that does not end leaves it, and it is taken off the table. -/
theorem attempt_leaving (ha : c.callers[k]? = some (.waiting i)) (hf : c.flights[i]? = some f)
    (hrunning : f.stage = .running) (hwaiters : f.waiters = 1) :
    (c.attempt (leaving k)).callers[k]? = some (.answered (.error (gaveUp f.key))) ∧
      (c.attempt (leaving k)).flights[i]? = some { f with waiters := 0, cancelled := true } ∧
      (c.attempt (leaving k)).inFlight = (c.dropFlight f.key i).inFlight ∧
      (c.attempt (leaving k)).closed = c.closed ∧
      (c.attempt (leaving k)).entries = c.entries := by
  have hgiveUp : c.step? (.giveUp k) = some (c.setCaller k (.leaving i)) := by
    simp [step?, giveUp?, ha, hf, hrunning, FlightStage.isDone]
  have hleaving := callers_setCaller ha (.leaving i)
  have hflight : (c.setCaller k (.leaving i)).flights[i]? = some f := hf
  generalize hb : ((c.setCaller k (.leaving i)).modifyFlight i fun g =>
    { g with waiters := 0 }).dropFlight f.key i = b
  have hdetach : (c.setCaller k (.leaving i)).step? (.detach k) =
      some (b.setCaller k (.cancelling i)) := by
    simp [step?, detach?, hleaving, hflight, detach, hwaiters, hrunning, FlightStage.isDone, ← hb]
  have hcancelling : (b.setCaller k (.cancelling i)).callers[k]? = some (.cancelling i) := by
    refine callers_setCaller (a := .leaving i) ?_ _
    rw [← hb, dropFlight_callers]
    exact hleaving
  have hdeserted : (b.setCaller k (.cancelling i)).flights[i]? = some { f with waiters := 0 } := by
    change b.flights[i]? = _
    rw [← hb, dropFlight_flights]
    simp [modifyFlight, hflight]
  have hcancel : (b.setCaller k (.cancelling i)).step? (.cancelToken k) =
      some (((b.setCaller k (.cancelling i)).modifyFlight i fun g =>
        { g with cancelled := true }).setCaller k (.answered (.error (gaveUp f.key)))) := by
    simp [step?, cancelToken?, hcancelling, hdeserted]
  have hleft : c.attempt (leaving k) = ((b.setCaller k (.cancelling i)).modifyFlight i fun g =>
      { g with cancelled := true }).setCaller k (.answered (.error (gaveUp f.key))) := by
    rw [leaving, attempt_some hgiveUp, attempt_some hdetach, attempt_some hcancel]
    rfl
  rw [hleft]
  refine ⟨callers_setCaller (a := .cancelling i) hcancelling _, ?_, ?_, ?_, ?_⟩
  · change ((b.setCaller k (.cancelling i)).modifyFlight i _).flights[i]? = _
    simp [modifyFlight, hdeserted]
  · change b.inFlight = _
    rw [← hb, dropFlight_eq, dropFlight_eq]
    rfl
  · change b.closed = _
    rw [← hb, dropFlight_eq]
    rfl
  · change b.entries = _
    rw [← hb, dropFlight_eq]
    rfl

/-- A computation that does not end is given up, and nothing is kept. -/
theorem call_stalled (h : c.IsIdle) {key : String} {entries : CacheTable τ V}
    (hlook : c.entries.look c.now key = (none, entries)) (ttl : Option τ)
    {compute : σ → Outcome V × σ} {s s' : σ} (hcompute : compute s = (.stalled, s')) :
    (c.call key ttl compute s).answer = some (.error (gaveUp key)) ∧
      (c.call key ttl compute s).state = s' ∧
      (c.call key ttl compute s).cache.IsIdle ∧
      (c.call key ttl compute s).cache.entries = entries := by
  have hdeparted := departed_of_missed h hlook ttl
  generalize hb : c.attempt [.request key ttl, .submit c.callers.length, .start c.flights.length] = b
    at hdeparted
  obtain ⟨hcaller, hflight, htable, hopen, hentries⟩ :=
    attempt_leaving hdeparted.caller hdeparted.flight rfl rfl
  generalize hd : b.attempt (leaving c.callers.length) = d at hcaller hflight htable hopen hentries
  have hlanded := landed_error hflight rfl (cancelledFailure)
  generalize hl : d.attempt (landing c.flights.length (.error cancelledFailure)) = l at hlanded
  have hcall : c.call key ttl compute s = ⟨l.answer? c.callers.length, true, l, s'⟩ := by
    simp [call, hb, hdeparted.isRunning, hcompute, endFlight, attempt_append, hd, hl]
  rw [hcall]
  refine ⟨?_, rfl, ⟨?_, ?_⟩, ?_⟩
  · simp [answer?, hlanded.callers, hcaller]
  · rw [hlanded.inFlight, dropFlight_eq, htable, hdeparted.dropFlight]
    rfl
  · rw [hlanded.closed, hopen, hdeparted.closed]
  · rw [hlanded.entries]
    exact hentries.trans hdeparted.entries

/-- All that may come of a request: the value that is kept, a value that is kept from now on, or a
failure. -/
theorem call_cases (h : c.IsIdle) (key : String) (ttl : Option τ) (compute : σ → Outcome V × σ)
    (s : σ) :
    (c.call key ttl compute s).cache.IsIdle ∧
      ((∃ e, (c.entries.look c.now key).1 = some e ∧
          (c.call key ttl compute s).answer = some (.ok e.value) ∧
          (c.call key ttl compute s).cache.entries = (c.entries.look c.now key).2) ∨
        (∃ v, (compute s).1 = .finished (.ok v) ∧
          (c.call key ttl compute s).answer = some (.ok v) ∧
          (c.call key ttl compute s).cache.entries =
            (CacheTable.store c.limits.capacity key
              ⟨v, c.now, Clock.later c.now (ttl.getD c.limits.defaultTtl)⟩
              (c.entries.look c.now key).2).1) ∨
        ∃ f, (∀ v, (compute s).1 ≠ .finished (.ok v)) ∧
          (c.call key ttl compute s).answer = some (.error f) ∧
          (c.call key ttl compute s).cache.entries = (c.entries.look c.now key).2) := by
  cases hlook : c.entries.look c.now key with
  | mk found entries =>
    cases found with
    | some e =>
      obtain ⟨hanswer, -, hidle, hentries⟩ := call_found h hlook ttl compute s
      exact ⟨hidle, .inl ⟨e, rfl, hanswer, hentries⟩⟩
    | none =>
      obtain ⟨outcome, s', hcompute⟩ : ∃ outcome s', compute s = (outcome, s') := ⟨_, _, rfl⟩
      cases outcome with
      | stalled =>
        obtain ⟨hanswer, -, hidle, hentries⟩ := call_stalled h hlook ttl hcompute
        exact ⟨hidle, .inr (.inr ⟨_, by simp [hcompute], hanswer, hentries⟩)⟩
      | finished r =>
        obtain ⟨hanswer, -, hidle, hentries⟩ := call_computed h hlook ttl hcompute
        cases r with
        | ok v => exact ⟨hidle, .inr (.inl ⟨v, by rw [hcompute], hanswer, hentries⟩)⟩
        | error e =>
          obtain ⟨f, hf⟩ : ∃ f, delivered key (.error e : Except Failure V) = .error f := by
            cases e <;> exact ⟨_, rfl⟩
          exact ⟨hidle, .inr (.inr ⟨f, by simp [hcompute], hf ▸ hanswer, hentries⟩)⟩

end Cache

end CohortAnalytics
