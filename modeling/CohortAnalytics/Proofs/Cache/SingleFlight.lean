import CohortAnalytics.Proofs.Cache.Transitions

/-!
One computation at a time for each key, and nobody waits for a flight that its owner and the
workers cannot bring to an end.
-/

namespace CohortAnalytics

/-- What may become of a flight: it keeps its key, gets nearer to its end and stays cancelled. -/
structure Flight.Later {τ V : Type} (f f' : Flight τ V) : Prop where
  key : f'.key = f.key
  nearer : f'.stage.remaining ≤ f.stage.remaining
  cancelled : f.cancelled → f'.cancelled

theorem Flight.Later.refl {τ V : Type} (f : Flight τ V) : f.Later f := ⟨rfl, Nat.le_refl _, id⟩

theorem Flight.Later.trans {τ V : Type} {f f' f'' : Flight τ V} (h : f.Later f') (h' : f'.Later f'') :
    f.Later f'' :=
  ⟨h'.key.trans h.key, Nat.le_trans h'.nearer h.nearer, h'.cancelled ∘ h.cancelled⟩

/-- The steps that bring a flight on: that of its owner, and those of a worker. -/
def CacheStep.drives {τ V : Type} (c : Cache τ V) (i : ℕ) : CacheStep τ V → Prop
  | .submit k => c.callers[k]? = some (.submitting i)
  | .start j => j = i
  | .finish j _ => j = i
  | .stamp j => j = i
  | .settle j => j = i
  | .publish j => j = i
  | _ => False

namespace Cache

variable {τ V : Type}

/-- A state that the owner or a worker of a flight leads to, with no step of anybody else. -/
inductive Driven [Clock τ] (i : ℕ) : Cache τ V → Cache τ V → Prop
  | refl (c : Cache τ V) : Driven i c c
  | step {c next c' : Cache τ V} {s : CacheStep τ V} (hdrives : s.drives c i)
      (hs : c.step? s = some next) (hrest : Driven i next c') : Driven i c c'

theorem Advances.nearer {c : Cache τ V} {i : ℕ} {key : String} {s : CacheStep τ V}
    {stage stage' : FlightStage τ V} (h : c.Advances i key s stage stage') :
    stage'.remaining < stage.remaining := by
  cases h <;> simp [FlightStage.remaining]

theorem later_modify {c : Cache τ V} {i j : ℕ} {f : Flight τ V} {g : Flight τ V → Flight τ V}
    (hf : c.flights[i]? = some f) (hg : j = i → f.Later (g f)) :
    ∃ f', (c.flights.modify j g)[i]? = some f' ∧ f.Later f' := by
  by_cases hij : j = i
  · exact ⟨g f, by simp [hf, hij], hg hij⟩
  · exact ⟨f, by simp [hf, hij], .refl f⟩

variable [Clock τ]

theorem later_step {c c' : Cache τ V} (h : c.Sound) {i : ℕ} {f : Flight τ V}
    (hf : c.flights[i]? = some f) {s : CacheStep τ V} (hs : c.step? s = some c') :
    ∃ f', c'.flights[i]? = some f' ∧ f.Later f' := by
  have hafter := h.flights_step hs
  generalize c'.flights = flights at hafter
  cases hafter with
  | same => exact ⟨f, hf, .refl f⟩
  | counted j waiters => exact later_modify hf fun _ => ⟨rfl, Nat.le_refl _, id⟩
  | cancelled j => exact later_modify hf fun _ => ⟨rfl, Nat.le_refl _, fun _ => rfl⟩
  | advanced hf₀ hadvances =>
    refine later_modify hf fun hij => ?_
    subst hij
    obtain rfl := Option.some.inj (hf.symm.trans hf₀)
    exact ⟨rfl, hadvances.nearer.le, id⟩
  | begun =>
    exact ⟨f, (List.getElem?_append_left (List.getElem?_eq_some_iff.mp hf).1).trans hf, .refl f⟩

theorem later_run {c c' : Cache τ V} (h : c.Sound) {i : ℕ} {f : Flight τ V}
    (hf : c.flights[i]? = some f) {steps : List (CacheStep τ V)} (hs : c.run? steps = some c') :
    ∃ f', c'.flights[i]? = some f' ∧ f.Later f' := by
  refine run_induction (P := fun _ d => ∃ f', d.flights[i]? = some f' ∧ f.Later f')
    ⟨f, hf, .refl f⟩ (fun taken b s d hb hstep ih => ?_) hs
  -- A step is only known to bring flights on in a sound state, and what was run so far is one.
  obtain ⟨f', hf', hlater⟩ := ih
  obtain ⟨f'', hf'', hlater'⟩ := later_step (h.run hb) hf' hstep
  exact ⟨f'', hf'', hlater.trans hlater'⟩

/-- A flight that is not done has a step of its owner or of a worker ahead. -/
theorem Sound.step_ahead {c : Cache τ V} (h : c.Sound) {i : ℕ} {f : Flight τ V}
    (hf : c.flights[i]? = some f) (hdone : f.stage.isDone = false) :
    ∃ s c' f', s.drives c i ∧ c.step? s = some c' ∧ c'.flights[i]? = some f' ∧
      f'.stage.remaining < f.stage.remaining := by
  have hset (stage : FlightStage τ V) :
      (c.setStage i stage).flights[i]? = some { f with stage := stage } := by
    simp [setStage, modifyFlight, hf]
  cases hstage : f.stage with
  | registered =>
    have howned := (h.flight i f hf).owned
    simp only [hstage, FlightStage.isRegistered, if_true] at howned
    obtain ⟨a, ha, howns⟩ := List.countP_pos_iff.mp (show 0 < c.owners i by rw [howned]; decide)
    obtain ⟨k, hk⟩ := List.getElem?_of_mem ha
    obtain rfl : a = .submitting i := by
      cases a <;> simp_all [Caller.owns]
    by_cases hclosed : c.closed = true
    · exact ⟨.submit k, (c.setStage i (.failed closedFailure)).setCaller k (.refused i), _, hk,
        by simp only [step?, submit?, hk, if_pos hclosed], hset (.failed closedFailure),
        by simp [FlightStage.remaining]⟩
    · exact ⟨.submit k, (c.setStage i .queued).setCaller k (.waiting i), _, hk,
        by simp only [step?, submit?, hk, if_neg hclosed], hset .queued,
        by simp [FlightStage.remaining]⟩
  | queued =>
    refine ⟨.start i, c.setStage i (if f.cancelled then .failed (neverStarted f.key) else .running),
      _, rfl, by simp only [step?, start?, hf, hstage], hset _, ?_⟩
    dsimp only
    split <;> simp [FlightStage.remaining]
  | running =>
    -- A computation may end in any way; one is enough.
    exact ⟨.finish i (.error .outOfTime), c.setStage i (.failed .outOfTime), _, rfl,
      by simp only [step?, finish?, hf, hstage], hset _, by simp [FlightStage.remaining]⟩
  | returned v =>
    exact ⟨.stamp i, c.setStage i (.stamped v c.now), _, rfl,
      by simp only [step?, stamp?, hf, hstage], hset _, by simp [FlightStage.remaining]⟩
  | stamped v now =>
    refine ⟨.settle i, ((c.commit f v now).dropFlight f.key i).setStage i (.settled (.ok v)),
      { f with stage := .settled (.ok v) }, rfl, by simp only [step?, settle?, hf, hstage], ?_,
      by simp [FlightStage.remaining]⟩
    simp [setStage, modifyFlight, commit, hf]
  | failed e =>
    refine ⟨.settle i, (c.dropFlight f.key i).setStage i (.settled (.error e)),
      { f with stage := .settled (.error e) }, rfl, by simp only [step?, settle?, hf, hstage], ?_,
      by simp [FlightStage.remaining]⟩
    simp [setStage, modifyFlight, hf]
  | settled r =>
    exact ⟨.publish i, c.setStage i (.done r), _, rfl,
      by simp only [step?, publish?, hf, hstage], hset _, by simp [FlightStage.remaining]⟩
  | done r =>
    rw [hstage] at hdone
    cases hdone

theorem Sound.driven {c : Cache τ V} (h : c.Sound) {i : ℕ} {f : Flight τ V}
    (hf : c.flights[i]? = some f) :
    ∃ c' f', Driven i c c' ∧ c'.flights[i]? = some f' ∧ f'.stage.isDone = true := by
  induction hn : f.stage.remaining using Nat.strongRecOn generalizing c f with
  | _ n ih =>
    by_cases hdone : f.stage.isDone = true
    · exact ⟨c, f, .refl c, hf, hdone⟩
    · obtain ⟨s, next, f', hdrives, hs, hf', hlt⟩ := h.step_ahead hf (by simpa using hdone)
      obtain ⟨c', f'', hdriven, hf'', hend⟩ := ih _ (hn ▸ hlt) (h.step hs) hf' rfl
      exact ⟨c', f'', .step hdrives hs hdriven, hf'', hend⟩

/-- One computation at a time for each key. A flight in the table is unfinished, not cancelled and
counts its callers; of the flights of one key only that one may have callers and a computation that
runs or has yet to run; nobody waits, now or later, for a flight that is cancelled; and whoever
waits for an unfinished flight can count on its owner or a worker. -/
structure SingleFlight (c : Cache τ V) : Prop where
  tabled : ∀ (key : String) (i : ℕ), c.inFlight.find? key = some i →
    ∃ f, c.flights[i]? = some f ∧ f.key = key ∧ f.stage.isDone = false ∧ f.cancelled = false ∧
      1 ≤ f.waiters ∧ f.waiters = c.attached i
  unique : ∀ (i : ℕ) (f : Flight τ V) (j : ℕ) (g : Flight τ V),
    c.flights[i]? = some f → c.flights[j]? = some g → f.key = g.key →
    f.stage.isPending → g.stage.isPending → 0 < c.attached i → 0 < c.attached j →
      i = j ∧ c.inFlight.find? f.key = some i
  deserted : ∀ (i : ℕ) (f : Flight τ V), c.flights[i]? = some f → f.cancelled → c.attached i = 0 ∧
    ∀ steps c', c.run? steps = some c' → c'.attached i = 0
  finishes : ∀ (k : ℕ) (a : Caller V) (i : ℕ) (f : Flight τ V),
    c.callers[k]? = some a → a.attachedTo i → c.flights[i]? = some f → f.stage.isDone = false →
      (∃ s next f', s.drives c i ∧ c.step? s = some next ∧ next.flights[i]? = some f' ∧
        f'.stage.remaining < f.stage.remaining) ∧
      (∃ c' f', Driven i c c' ∧ c'.flights[i]? = some f' ∧ f'.stage.isDone) ∧
      ∀ steps c', c.run? steps = some c' →
        ∃ f', c'.flights[i]? = some f' ∧ f'.stage.remaining ≤ f.stage.remaining

theorem Sound.singleFlight {c : Cache τ V} (h : c.Sound) : c.SingleFlight := by
  refine ⟨fun key i hfind => ?_, fun i f j g hf hg hkey hpf hpg hi hj => ?_, fun i f hf hc => ?_,
    fun k a i f _ _ hf hdone => ⟨h.step_ahead hf hdone, h.driven hf, fun steps c' hs => ?_⟩⟩
  · obtain ⟨f, hf, rfl⟩ := h.known key i hfind
    obtain ⟨hcounted, htabled, -, hquiet⟩ := h.flight i f hf
    obtain ⟨hlive, hpos⟩ := htabled.mp hfind
    have hdone := isDone_of_isLive hlive
    have hcount := hcounted hdone
    refine ⟨f, hf, rfl, hdone, ?_, by omega, hcount⟩
    by_contra hc
    have := hquiet (by simpa using hc)
    omega
  · have hfirst := (h.flight i f hf).tabled.mpr ⟨isLive_of_isPending hpf, hi⟩
    have hsecond := (h.flight j g hg).tabled.mpr ⟨isLive_of_isPending hpg, hj⟩
    rw [← hkey, hfirst] at hsecond
    exact ⟨Option.some.inj hsecond, hfirst⟩
  · refine ⟨(h.flight i f hf).quiet hc, fun steps c' hs => ?_⟩
    obtain ⟨f', hf', hlater⟩ := later_run h hf hs
    exact ((h.run hs).flight i f' hf').quiet (hlater.cancelled hc)
  · obtain ⟨f', hf', hlater⟩ := later_run h hf hs
    exact ⟨f', hf', hlater.nearer⟩

/-- In every state that any order of steps leads to, each key has one computation at a time. -/
theorem singleFlight_of_run {limits : CacheLimits τ} {now : τ} {steps : List (CacheStep τ V)}
    {c : Cache τ V} (h : ({ limits, now } : Cache τ V).run? steps = some c) : c.SingleFlight :=
  ((sound_initial limits now).run h).singleFlight

/-- A caller leaves a flight that another one still waits for, and its key is asked for again. -/
theorem singleFlight_of_joined : ∃ c : Cache Number String,
    ({ limits := ⟨2, .int 60, by decide⟩, now := .int 0 } : Cache Number String).run?
        [.request "k" none, .submit 0, .request "k" none, .giveUp 1, .detach 1, .start 0,
          .request "k" none] = some c ∧
      c.SingleFlight := by
  refine (Option.isSome_iff_exists.mp ?_).imp fun c hc => ⟨hc, singleFlight_of_run hc⟩
  rfl

end Cache

end CohortAnalytics
