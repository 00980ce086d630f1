import CohortAnalytics.Proofs.Cache.Commits
import CohortAnalytics.Proofs.Cache.Transitions

/-!
What holds of every value that comes in holds of every value that is kept, and a request with its
answer is made of steps that bring in no other value and leave the clock alone.
-/

namespace CohortAnalytics

/-- The value of a flight that is about to be stored. -/
def FlightStage.held? {τ V : Type} : FlightStage τ V → Option V
  | .returned v => some v
  | .stamped v _ => some v
  | _ => none

namespace Cache

variable {τ V σ : Type} {p : V → Prop} {c d : Cache τ V} {s : CacheStep τ V}

def FlightsHold (p : V → Prop) (c : Cache τ V) : Prop :=
  ∀ f ∈ c.flights, ∀ v, f.stage.held? = some v → p v

/-- Every value that is kept, or about to be, has the property. -/
structure AllHold (p : V → Prop) (c : Cache τ V) : Prop where
  kept : c.entries.Holds fun _ => p
  coming : c.FlightsHold p

theorem Advances.held {i : ℕ} {key : String} {stage stage' : FlightStage τ V} {v : V}
    (h : c.Advances i key s stage stage') (hv : stage'.held? = some v) :
    stage.held? = some v ∨ s = .finish i (.ok v) := by
  cases h with
  | returned w =>
    obtain rfl := Option.some.inj hv
    exact .inr rfl
  | stamped w => exact .inl hv
  | _ => cases hv

variable [Clock τ]

/-- Only the end of a computation brings a value in. -/
theorem FlightsHold.step (h : c.FlightsHold p) (hsound : c.Sound) (hs : c.step? s = some d)
    (hfinish : ∀ i v, s = .finish i (.ok v) → p v) : d.FlightsHold p := by
  intro g hg v hv
  obtain ⟨j, hj⟩ := List.getElem?_of_mem hg
  rcases hsound.flight_step hs hj with ⟨key, ttl, -, -, -, -, rfl⟩ | ⟨f, hf, -, -, hstage⟩
  · cases hv
  · have hheld : f.stage.held? = some v → p v := h f (List.mem_of_getElem? hf) v
    rcases hstage with hsame | hadvances
    · exact hheld (hsame ▸ hv)
    · exact (hadvances.held hv).elim hheld (hfinish j v)

theorem AllHold.step (h : c.AllHold p) (hsound : c.Sound) (hs : c.step? s = some d)
    (hfinish : ∀ i v, s = .finish i (.ok v) → p v) : d.AllHold p := by
  refine ⟨CacheTable.Holds.sublist ?_ (entries_sublist hs), h.coming.step hsound hs hfinish⟩
  unfold written
  cases hcommit : c.committed? s with
  | none => exact h.kept
  | some m =>
    obtain ⟨i, f, v, now, rfl, hf, hstage, rfl⟩ := committed?_cases hcommit
    refine h.kept.put (h.coming f (List.mem_of_getElem? hf) v ?_)
    rw [hstage]
    rfl

theorem now_step (hs : c.step? s = some d) (hs' : ∀ now, s ≠ .tick now) : d.now = c.now := by
  rw [(context_step hs).2]
  cases s with
  | tick now => exact absurd rfl (hs' now)
  | _ => rfl

/-- A step of a request whose computation has an outcome: a value it brings in is that outcome. -/
def IsOfCall (outcome : Outcome V) : CacheStep τ V → Prop
  | .tick _ => False
  | .finish _ (.ok v) => outcome = .finished (.ok v)
  | _ => True

theorem endFlight_keeps {q : Cache τ V → Prop} {outcome : Outcome V}
    (hstep : ∀ s, IsOfCall outcome s → ∀ c d, q c → c.step? s = some d → q d) (caller i : ℕ)
    (h : q c) : q (c.endFlight caller i outcome) := by
  unfold endFlight
  cases outcome with
  | finished r =>
    refine attempt_keeps (fun s hs => hstep s ?_) h
    revert s
    cases r <;> simp [IsOfCall, landing, arriving]
  | stalled =>
    refine attempt_keeps (fun s hs => hstep s ?_) h
    revert s
    simp [IsOfCall, leaving, landing]

theorem call_cache (c : Cache τ V) (key : String) (ttl : Option τ) (compute : σ → Outcome V × σ)
    (st : σ) : (c.call key ttl compute st).cache =
      let b := c.attempt [.request key ttl, .submit c.callers.length, .start c.flights.length]
      if b.isRunning c.flights.length then
        b.endFlight c.callers.length c.flights.length (compute st).1
      else (b.refusedFlight? c.callers.length).elim b fun i =>
        b.attempt (arriving c.callers.length i) := by
  unfold call
  dsimp only
  split_ifs
  · rfl
  · generalize c.attempt [.request key ttl, .submit c.callers.length, .start c.flights.length] = b
    cases b.refusedFlight? c.callers.length <;> rfl

theorem call_keeps {q : Cache τ V → Prop} {key : String} {ttl : Option τ}
    {compute : σ → Outcome V × σ} {st : σ}
    (hstep : ∀ s, IsOfCall (compute st).1 s → ∀ c d, q c → c.step? s = some d → q d) (h : q c) :
    q (c.call key ttl compute st).cache := by
  have hdeparted : q (c.attempt [.request key ttl, .submit c.callers.length,
      .start c.flights.length]) := by
    refine attempt_keeps (fun s hs => hstep s ?_) h
    revert s
    simp [IsOfCall]
  rw [call_cache]
  generalize c.attempt [.request key ttl, .submit c.callers.length, .start c.flights.length] = b
    at hdeparted
  dsimp only
  split_ifs
  · exact endFlight_keeps hstep _ _ hdeparted
  · cases b.refusedFlight? c.callers.length with
    | none => exact hdeparted
    | some i =>
      refine attempt_keeps (fun s hs => hstep s ?_) hdeparted
      revert s
      simp [IsOfCall, arriving]

theorem call_now (c : Cache τ V) (key : String) (ttl : Option τ) (compute : σ → Outcome V × σ)
    (st : σ) : (c.call key ttl compute st).cache.now = c.now := by
  refine call_keeps (q := fun d => d.now = c.now) (fun s hs b d hb hd => ?_) rfl
  refine (now_step hd ?_).trans hb
  rintro now rfl
  exact hs

end Cache

end CohortAnalytics
