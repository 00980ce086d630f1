import CohortAnalytics.Proofs.Cache.Call

/-!
What one step makes of the clock, of each flight and of each caller. Every invariant of flights and
callers over a run is an induction on these inversions.
-/

namespace CohortAnalytics

/-- The moment that the clock shows after a step. -/
def CacheStep.clock {τ V : Type} : CacheStep τ V → τ → τ
  | .tick now, _ => now
  | _, now => now

namespace Cache

variable {τ V : Type}

/-- How a step brings the flight of a place on from one stage to the next. -/
inductive Advances (c : Cache τ V) (j : ℕ) (key : String) :
    CacheStep τ V → FlightStage τ V → FlightStage τ V → Prop
  | queued {k : ℕ} : Advances c j key (.submit k) .registered .queued
  | refused {k : ℕ} : Advances c j key (.submit k) .registered (.failed closedFailure)
  | started : Advances c j key (.start j) .queued .running
  | neverStarted : Advances c j key (.start j) .queued (.failed (neverStarted key))
  | returned (v : V) : Advances c j key (.finish j (.ok v)) .running (.returned v)
  | failed (e : Failure) : Advances c j key (.finish j (.error e)) .running (.failed e)
  | stamped (v : V) : Advances c j key (.stamp j) (.returned v) (.stamped v c.now)
  | stored (v : V) (now : τ) : Advances c j key (.settle j) (.stamped v now) (.settled (.ok v))
  | dropped (e : Failure) : Advances c j key (.settle j) (.failed e) (.settled (.error e))
  | published (r : Except Failure V) : Advances c j key (.publish j) (.settled r) (.done r)

/-- How a step brings a caller on. -/
inductive Proceeds (c : Cache τ V) (k : ℕ) : CacheStep τ V → Caller V → Caller V → Prop
  | queued (i : ℕ) : Proceeds c k (.submit k) (.submitting i) (.waiting i)
  | refused (i : ℕ) : Proceeds c k (.submit k) (.submitting i) (.refused i)
  | told {i : ℕ} {f : Flight τ V} {r : Except Failure V} (hf : c.flights[i]? = some f)
      (hdone : f.stage = .done r) (hr : r ≠ .error .outOfTime) :
      Proceeds c k (.collect k) (.waiting i) (.answered r)
  | outOfTime {i : ℕ} {f : Flight τ V} (hf : c.flights[i]? = some f)
      (hdone : f.stage = .done (.error .outOfTime)) :
      Proceeds c k (.collect k) (.waiting i) (.leaving i)
  | refusal {i : ℕ} {f : Flight τ V} {r : Except Failure V} (hf : c.flights[i]? = some f)
      (hdone : f.stage = .done r) : Proceeds c k (.collect k) (.refused i) (.answered r)
  | gaveUp {i : ℕ} {f : Flight τ V} (hf : c.flights[i]? = some f)
      (hdone : f.stage.isDone = false) : Proceeds c k (.giveUp k) (.waiting i) (.leaving i)
  | left {i : ℕ} {f : Flight τ V} (hf : c.flights[i]? = some f) :
      Proceeds c k (.detach k) (.leaving i) (.answered (.error (Cache.gaveUp f.key)))
  | deserted {i : ℕ} {f : Flight τ V} (hf : c.flights[i]? = some f)
      (hdone : f.stage.isDone = false) : Proceeds c k (.detach k) (.leaving i) (.cancelling i)
  | cancelled {i : ℕ} {f : Flight τ V} (hf : c.flights[i]? = some f) :
      Proceeds c k (.cancelToken k) (.cancelling i) (.answered (.error (Cache.gaveUp f.key)))

variable {c d : Cache τ V} {s : CacheStep τ V}

theorem flight_modify {j i : ℕ} {g : Flight τ V} {u : Flight τ V → Flight τ V}
    (hg : (c.flights.modify i u)[j]? = some g) :
    ∃ f, c.flights[j]? = some f ∧ ((j ≠ i ∧ g = f) ∨ (j = i ∧ g = u f)) := by
  rw [List.getElem?_modify] at hg
  obtain ⟨f, hf, rfl⟩ := Option.map_eq_some_iff.mp hg
  refine ⟨f, hf, ?_⟩
  by_cases hij : i = j
  · exact .inr ⟨hij.symm, if_pos hij⟩
  · exact .inl ⟨Ne.symm hij, if_neg hij⟩

/-- A flight that has been there before: it is still about the same, and no further than one stage. -/
def Continues (c : Cache τ V) (j : ℕ) (s : CacheStep τ V) (g : Flight τ V) : Prop :=
  ∃ f, c.flights[j]? = some f ∧ g.key = f.key ∧ g.ttl = f.ttl ∧
    (g.stage = f.stage ∨ c.Advances j f.key s f.stage g.stage)

theorem continues_modify {j i : ℕ} {g : Flight τ V} {u : Flight τ V → Flight τ V}
    (hg : (c.flights.modify i u)[j]? = some g)
    (hu : ∀ f, (u f).key = f.key ∧ (u f).ttl = f.ttl ∧ (u f).stage = f.stage) :
    c.Continues j s g := by
  obtain ⟨f, hf, ⟨-, rfl⟩ | ⟨-, rfl⟩⟩ := flight_modify hg
  · exact ⟨g, hf, rfl, rfl, .inl rfl⟩
  · exact ⟨f, hf, (hu f).1, (hu f).2.1, .inl (hu f).2.2⟩

theorem continues_setStage {i j : ℕ} {f₀ g : Flight τ V} {stage : FlightStage τ V}
    (hf₀ : c.flights[i]? = some f₀) (hadvances : c.Advances i f₀.key s f₀.stage stage)
    (hg : (c.flights.modify i fun f => { f with stage })[j]? = some g) : c.Continues j s g := by
  obtain ⟨f, hf, ⟨-, rfl⟩ | ⟨rfl, rfl⟩⟩ := flight_modify hg
  · exact ⟨g, hf, rfl, rfl, .inl rfl⟩
  · obtain rfl := Option.some.inj (hf₀.symm.trans hf)
    exact ⟨f₀, hf₀, rfl, rfl, .inr hadvances⟩

theorem caller_set {k l : ℕ} {a b b' : Caller V} (ha : c.callers[l]? = some a)
    (hproceeds : c.Proceeds l s a b') (hb : (c.callers.set l b')[k]? = some b) :
    c.callers[k]? = some b ∨ ∃ a, c.callers[k]? = some a ∧ c.Proceeds k s a b := by
  by_cases hkl : l = k
  · subst hkl
    rw [List.getElem?_set_self (List.getElem?_eq_some_iff.mp ha).1] at hb
    exact .inr ⟨a, ha, Option.some.inj hb ▸ hproceeds⟩
  · rw [List.getElem?_set_ne hkl] at hb
    exact .inl hb

theorem caller_concat {k : ℕ} {a b : Caller V} (hb : (c.callers ++ [a])[k]? = some b) :
    c.callers[k]? = some b ∨ k = c.callers.length ∧ b = a := by
  rcases Nat.lt_or_ge k c.callers.length with hlt | hge
  · rw [List.getElem?_append_left hlt] at hb
    exact .inl hb
  · rw [List.getElem?_append_right hge] at hb
    obtain ⟨hzero, rfl⟩ := List.getElem?_eq_some_iff.mp hb
    exact .inr ⟨by simp at hzero; omega, by simp⟩

theorem context_dropFlight (c : Cache τ V) (key : String) (i : ℕ) :
    (c.dropFlight key i).limits = c.limits ∧ (c.dropFlight key i).now = c.now := by
  rw [dropFlight_eq]
  exact ⟨rfl, rfl⟩

variable [Clock τ]

/-- How a new caller of a key comes in. -/
inductive Enters (c : Cache τ V) (key : String) : Caller V → Prop
  | served {v : V} (h : (c.get key).1 = some v) : Enters c key (.answered (.ok v))
  | joining {i : ℕ} (hget : (c.get key).1 = none) (hfind : c.inFlight.find? key = some i) :
      Enters c key (.waiting i)
  | registering (hget : (c.get key).1 = none) (hfind : c.inFlight.find? key = none) :
      Enters c key (.submitting c.flights.length)

theorem context_step (hs : c.step? s = some d) : d.limits = c.limits ∧ d.now = s.clock c.now := by
  cases s with
  | request key ttl =>
    obtain rfl := Option.some.inj hs
    rcases request_cases c key ttl with ⟨v, -, heq⟩ | ⟨i, -, -, heq⟩ | ⟨-, -, heq⟩
    all_goals
      rw [heq]
      exact ⟨rfl, rfl⟩
  | submit k =>
    obtain ⟨i, -, ⟨-, rfl⟩ | ⟨-, rfl⟩⟩ := submit?_cases hs
    all_goals exact ⟨rfl, rfl⟩
  | start i =>
    obtain ⟨f, -, -, rfl⟩ := start?_cases hs
    exact ⟨rfl, rfl⟩
  | finish i r =>
    obtain ⟨f, -, -, ⟨v, -, rfl⟩ | ⟨e, -, rfl⟩⟩ := finish?_cases hs
    all_goals exact ⟨rfl, rfl⟩
  | stamp i =>
    obtain ⟨f, v, -, -, rfl⟩ := stamp?_cases hs
    exact ⟨rfl, rfl⟩
  | settle i =>
    obtain ⟨f, -, ⟨v, now, -, rfl⟩ | ⟨e, -, rfl⟩⟩ := settle?_cases hs
    · exact context_dropFlight (c.commit f v now) f.key i
    · exact context_dropFlight c f.key i
  | publish i =>
    obtain ⟨f, r, -, -, rfl⟩ := publish?_cases hs
    exact ⟨rfl, rfl⟩
  | collect k =>
    obtain ⟨i, f, r, -, -, ⟨-, ⟨-, rfl⟩ | ⟨-, rfl⟩⟩ | ⟨-, rfl⟩⟩ := collect?_cases hs
    all_goals exact ⟨rfl, rfl⟩
  | giveUp k =>
    obtain ⟨i, f, -, -, -, rfl⟩ := giveUp?_cases hs
    exact ⟨rfl, rfl⟩
  | detach k =>
    obtain ⟨i, f, -, -, ⟨-, -, rfl⟩ | ⟨-, rfl⟩⟩ := detach?_cases hs
    · exact context_dropFlight (c.modifyFlight i fun g => { g with waiters := f.waiters - 1 }) f.key i
    · exact ⟨rfl, rfl⟩
  | cancelToken k =>
    obtain ⟨i, f, -, -, rfl⟩ := cancelToken?_cases hs
    exact ⟨rfl, rfl⟩
  | _ =>
    obtain rfl := Option.some.inj hs
    exact ⟨rfl, rfl⟩

theorem settled_step {i : ℕ} (hs : c.step? (.settle i) = some d) :
    ∃ g r, d.flights[i]? = some g ∧ g.stage = .settled r := by
  obtain ⟨f, hf, ⟨v, now, -, rfl⟩ | ⟨e, -, rfl⟩⟩ := settle?_cases hs
  all_goals exact ⟨_, _, flights_setStage (by rw [dropFlight_flights]; exact hf) _, rfl⟩

/-- What a step may leave of the flights. -/
inductive FlightsAfter (c : Cache τ V) (s : CacheStep τ V) : List (Flight τ V) → Prop
  | same : FlightsAfter c s c.flights
  | counted (i : ℕ) (waiters : ℕ → ℕ) :
      FlightsAfter c s (c.flights.modify i fun f => { f with waiters := waiters f.waiters })
  | cancelled (i : ℕ) : FlightsAfter c s (c.flights.modify i fun f => { f with cancelled := true })
  | advanced {i : ℕ} {f : Flight τ V} {stage : FlightStage τ V} (hf : c.flights[i]? = some f)
      (hadvances : c.Advances i f.key s f.stage stage) :
      FlightsAfter c s (c.flights.modify i fun f => { f with stage })
  | begun {key : String} {ttl : Option τ} (hs : s = .request key ttl) (hget : (c.get key).1 = none)
      (hfind : c.inFlight.find? key = none) :
      FlightsAfter c s (c.flights ++ [{ key, ttl := ttl.getD c.limits.defaultTtl }])

theorem Sound.flights_step (h : c.Sound) (hs : c.step? s = some d) :
    c.FlightsAfter s d.flights := by
  cases s with
  | request key ttl =>
    obtain rfl := Option.some.inj hs
    rcases request_cases c key ttl with ⟨v, -, heq⟩ | ⟨i, -, -, heq⟩ | ⟨hget, hfind, heq⟩
    all_goals rw [heq]
    · exact .same
    · exact .counted i (· + 1)
    · exact .begun rfl hget hfind
  | submit k =>
    obtain ⟨i, ha, hcase⟩ := submit?_cases hs
    obtain ⟨f, hf, hregistered⟩ := h.registered_of_submitting ha
    rcases hcase with ⟨-, rfl⟩ | ⟨-, rfl⟩
    · exact .advanced hf (hregistered ▸ .refused)
    · exact .advanced hf (hregistered ▸ .queued)
  | start i =>
    obtain ⟨f, hf, hstage, rfl⟩ := start?_cases hs
    split
    · exact .advanced hf (hstage ▸ .neverStarted)
    · exact .advanced hf (hstage ▸ .started)
  | finish i r =>
    obtain ⟨f, hf, hstage, ⟨v, rfl, rfl⟩ | ⟨e, rfl, rfl⟩⟩ := finish?_cases hs
    · exact .advanced hf (hstage ▸ .returned v)
    · exact .advanced hf (hstage ▸ .failed e)
  | stamp i =>
    obtain ⟨f, v, hf, hstage, rfl⟩ := stamp?_cases hs
    exact .advanced hf (hstage ▸ .stamped v)
  | settle i =>
    obtain ⟨f, hf, ⟨v, now, hstage, rfl⟩ | ⟨e, hstage, rfl⟩⟩ := settle?_cases hs
    all_goals rw [setStage, modifyFlight, dropFlight_flights]
    · exact .advanced hf (hstage ▸ .stored v now)
    · exact .advanced hf (hstage ▸ .dropped e)
  | publish i =>
    obtain ⟨f, r, hf, hstage, rfl⟩ := publish?_cases hs
    exact .advanced hf (hstage ▸ .published r)
  | collect k =>
    obtain ⟨i, f, r, -, -, ⟨-, ⟨-, rfl⟩ | ⟨-, rfl⟩⟩ | ⟨-, rfl⟩⟩ := collect?_cases hs
    all_goals exact .same
  | giveUp k =>
    obtain ⟨i, f, -, -, -, rfl⟩ := giveUp?_cases hs
    exact .same
  | detach k =>
    obtain ⟨i, f, -, -, ⟨-, -, rfl⟩ | ⟨-, rfl⟩⟩ := detach?_cases hs
    · rw [setCaller, dropFlight_flights]
      exact .counted i fun _ => f.waiters - 1
    · exact .counted i fun _ => f.waiters - 1
  | cancelToken k =>
    obtain ⟨i, f, -, -, rfl⟩ := cancelToken?_cases hs
    exact .cancelled i
  | _ =>
    obtain rfl := Option.some.inj hs
    exact .same

/-- Every flight after a step is a new one, or has been there before. -/
theorem Sound.flight_step (h : c.Sound) (hs : c.step? s = some d) {j : ℕ} {g : Flight τ V}
    (hg : d.flights[j]? = some g) :
    (∃ key ttl, s = .request key ttl ∧ j = c.flights.length ∧ (c.get key).1 = none ∧
      c.inFlight.find? key = none ∧ g = { key, ttl := ttl.getD c.limits.defaultTtl }) ∨
    c.Continues j s g := by
  have hafter := h.flights_step hs
  generalize d.flights = flights at hafter hg
  cases hafter with
  | same => exact .inr ⟨g, hg, rfl, rfl, .inl rfl⟩
  | counted i waiters => exact .inr (continues_modify hg fun _ => ⟨rfl, rfl, rfl⟩)
  | cancelled i => exact .inr (continues_modify hg fun _ => ⟨rfl, rfl, rfl⟩)
  | advanced hf hadvances => exact .inr (continues_setStage hf hadvances hg)
  | @begun key ttl hs hget hfind =>
    rcases Nat.lt_or_ge j c.flights.length with hlt | hge
    · rw [List.getElem?_append_left hlt] at hg
      exact .inr ⟨g, hg, rfl, rfl, .inl rfl⟩
    · rw [List.getElem?_append_right hge] at hg
      obtain ⟨hzero, rfl⟩ := List.getElem?_eq_some_iff.mp hg
      exact .inl ⟨key, ttl, hs, by simp at hzero; omega, hget, hfind, by simp⟩

/-- A step leaves the callers as they are, brings one of them on, or lets a new one in. -/
theorem callers_step (hs : c.step? s = some d) :
    d.callers = c.callers ∨
      (∃ l a b, c.callers[l]? = some a ∧ c.Proceeds l s a b ∧ d.callers = c.callers.set l b) ∨
      ∃ key ttl b, s = .request key ttl ∧ c.Enters key b ∧ d.callers = c.callers ++ [b] := by
  cases s with
  | request key ttl =>
    obtain rfl := Option.some.inj hs
    right; right
    rcases request_cases c key ttl with ⟨v, hget, heq⟩ | ⟨i, hget, hfind, heq⟩ | ⟨hget, hfind, heq⟩
    all_goals rw [heq]
    · exact ⟨key, ttl, _, rfl, .served hget, rfl⟩
    · exact ⟨key, ttl, _, rfl, .joining hget hfind, rfl⟩
    · exact ⟨key, ttl, _, rfl, .registering hget hfind, rfl⟩
  | submit l =>
    obtain ⟨i, ha, ⟨-, rfl⟩ | ⟨-, rfl⟩⟩ := submit?_cases hs
    · exact .inr (.inl ⟨l, _, _, ha, .refused i, rfl⟩)
    · exact .inr (.inl ⟨l, _, _, ha, .queued i, rfl⟩)
  | start i =>
    obtain ⟨f, -, -, rfl⟩ := start?_cases hs
    exact .inl rfl
  | finish i r =>
    obtain ⟨f, -, -, ⟨v, -, rfl⟩ | ⟨e, -, rfl⟩⟩ := finish?_cases hs
    all_goals exact .inl rfl
  | stamp i =>
    obtain ⟨f, v, -, -, rfl⟩ := stamp?_cases hs
    exact .inl rfl
  | settle i =>
    obtain ⟨f, -, ⟨v, now, -, rfl⟩ | ⟨e, -, rfl⟩⟩ := settle?_cases hs
    · exact .inl (dropFlight_callers (c.commit f v now) f.key i)
    · exact .inl (dropFlight_callers c f.key i)
  | publish i =>
    obtain ⟨f, r, -, -, rfl⟩ := publish?_cases hs
    exact .inl rfl
  | collect l =>
    obtain ⟨i, f, r, hf, hdone, ⟨ha, ⟨rfl, rfl⟩ | ⟨hr, rfl⟩⟩ | ⟨ha, rfl⟩⟩ := collect?_cases hs
    · exact .inr (.inl ⟨l, _, _, ha, .outOfTime hf hdone, rfl⟩)
    · exact .inr (.inl ⟨l, _, _, ha, .told hf hdone hr, rfl⟩)
    · exact .inr (.inl ⟨l, _, _, ha, .refusal hf hdone, rfl⟩)
  | giveUp l =>
    obtain ⟨i, f, ha, hf, hdone, rfl⟩ := giveUp?_cases hs
    exact .inr (.inl ⟨l, _, _, ha, .gaveUp hf hdone, rfl⟩)
  | detach l =>
    obtain ⟨i, f, ha, hf, ⟨-, hdone, rfl⟩ | ⟨-, rfl⟩⟩ := detach?_cases hs
    · refine .inr (.inl ⟨l, _, _, ha, .deserted hf hdone, ?_⟩)
      rw [setCaller, dropFlight_callers]
      rfl
    · exact .inr (.inl ⟨l, _, _, ha, .left hf, rfl⟩)
  | cancelToken l =>
    obtain ⟨i, f, ha, hf, rfl⟩ := cancelToken?_cases hs
    exact .inr (.inl ⟨l, _, _, ha, .cancelled hf, rfl⟩)
  | _ =>
    obtain rfl := Option.some.inj hs
    exact .inl rfl

/-- Every caller after a step is where it was, has been brought on, or has just come in. -/
theorem caller_step (hs : c.step? s = some d) {k : ℕ} {b : Caller V}
    (hb : d.callers[k]? = some b) :
    c.callers[k]? = some b ∨ (∃ a, c.callers[k]? = some a ∧ c.Proceeds k s a b) ∨
      ∃ key ttl, s = .request key ttl ∧ k = c.callers.length ∧ c.Enters key b := by
  rcases callers_step hs with heq | ⟨l, a, b', ha, hproceeds, heq⟩ | ⟨key, ttl, b', rfl, henters, heq⟩
  all_goals rw [heq] at hb
  · exact .inl hb
  · exact (caller_set ha hproceeds hb).imp_right .inl
  · rcases caller_concat hb with hb | ⟨rfl, rfl⟩
    · exact .inl hb
    · exact .inr (.inr ⟨key, ttl, rfl, rfl, henters⟩)

/-- No caller is lost. -/
theorem caller_next (hs : c.step? s = some d) {k : ℕ} {a : Caller V}
    (ha : c.callers[k]? = some a) :
    ∃ b, d.callers[k]? = some b ∧ (b = a ∨ c.Proceeds k s a b) := by
  have hk : k < c.callers.length := (List.getElem?_eq_some_iff.mp ha).1
  have hlength : k < d.callers.length := by
    rcases callers_step hs with heq | ⟨l, a', b', -, -, heq⟩ | ⟨key, ttl, b', -, -, heq⟩
    all_goals simp only [heq, List.length_set, List.length_append]
    all_goals omega
  obtain ⟨b, hb⟩ : ∃ b, d.callers[k]? = some b := ⟨_, List.getElem?_eq_getElem hlength⟩
  refine ⟨b, hb, ?_⟩
  rcases caller_step hs hb with hsame | ⟨a', ha', hproceeds⟩ | ⟨key, ttl, -, rfl, -⟩
  · exact .inl (Option.some.inj (hsame.symm.trans ha))
  · obtain rfl := Option.some.inj (ha.symm.trans ha')
    exact .inr hproceeds
  · omega

end Cache

end CohortAnalytics
