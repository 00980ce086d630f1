import CohortAnalytics.Proofs.Cache.Commits
import CohortAnalytics.Proofs.Cache.Transitions
import CohortAnalytics.Proofs.Results

/-!
What a run has on record. A flight was asked for by a step of the run, its result is that of a
computation that ended there, a stamped value carries the moment of its stamp, and a caller that was
told a failure was told that of its flight or had given up.
-/

namespace CohortAnalytics

/-- How the computation of a flight has ended, once it has. -/
def FlightStage.result? {τ V : Type} : FlightStage τ V → Option (Except Failure V)
  | .returned v => some (.ok v)
  | .stamped v _ => some (.ok v)
  | .failed e => some (.error e)
  | .settled r => some r
  | .done r => some r
  | _ => none

namespace Cache

variable {τ V : Type} {b c d : Cache τ V} {s : CacheStep τ V} {steps : List (CacheStep τ V)}
variable {i k : ℕ} {f : Flight τ V} {key : String} {r : Except Failure V}

/-- A result is that of the computation, unless no computation was begun. -/
def Ended (steps : List (CacheStep τ V)) (i : ℕ) (key : String) (r : Except Failure V) : Prop :=
  .finish i r ∈ steps ∨ r = .error closedFailure ∨ r = .error (neverStarted key)

theorem Ended.append (h : Ended steps i key r) (more : List (CacheStep τ V)) :
    Ended (steps ++ more) i key r := h.imp_left (List.mem_append_left more)

/-- Once its computation has ended, a flight keeps the result. -/
theorem Advances.keeps {stage stage' : FlightStage τ V} (h : c.Advances i key s stage stage')
    (hr : stage.result? = some r) : stage'.result? = some r := by
  cases h <;> simp_all [FlightStage.result?]

theorem Advances.ended {stage stage' : FlightStage τ V} (h : c.Advances i key s stage stage')
    (hr : stage'.result? = some r) : stage.result? = some r ∨ Ended [s] i key r := by
  cases h with
  | refused => exact .inr (.inr (.inl (Option.some.inj hr).symm))
  | neverStarted => exact .inr (.inr (.inr (Option.some.inj hr).symm))
  | returned v =>
    obtain rfl := Option.some.inj hr
    exact .inr (.inl List.mem_cons_self)
  | failed e =>
    obtain rfl := Option.some.inj hr
    exact .inr (.inl List.mem_cons_self)
  | queued => cases hr
  | started => cases hr
  | stamped v => exact .inl hr
  | stored v now => exact .inl hr
  | dropped e => exact .inl hr
  | published r' => exact .inl hr

variable [Clock τ]

/-- Somewhere along a run a step is taken in such a state. -/
def Sometime (p : Cache τ V → CacheStep τ V → Prop) (c : Cache τ V)
    (steps : List (CacheStep τ V)) : Prop :=
  ∃ before s after b, steps = before ++ s :: after ∧ c.run? before = some b ∧ p b s

section Runs

variable {p q : Cache τ V → CacheStep τ V → Prop}

theorem commits_concat (hb : c.run? steps = some b) (s : CacheStep τ V) :
    c.commits (steps ++ [s]) = c.commits steps ++ (b.committed? s).toList := by
  rw [commits_append hb, commits]
  cases b.step? s <;> simp [commits]

theorem Sometime.append (h : c.Sometime p steps) (more : List (CacheStep τ V)) :
    c.Sometime p (steps ++ more) := by
  obtain ⟨before, s, after, b, rfl, hb, hp⟩ := h
  exact ⟨before, s, after ++ more, b, by simp, hb, hp⟩

theorem sometime_concat (hb : c.run? steps = some b) (hp : p b s) : c.Sometime p (steps ++ [s]) :=
  ⟨steps, s, [], b, rfl, hb, hp⟩

end Runs

/-- A flight goes on being about the same, and comes no further than one stage in a step. -/
theorem Sound.flight_next (h : c.Sound) (hs : c.step? s = some d) (hf : c.flights[i]? = some f) :
    ∃ g, d.flights[i]? = some g ∧ g.key = f.key ∧ g.ttl = f.ttl ∧
      (g.stage = f.stage ∨ c.Advances i f.key s f.stage g.stage) := by
  obtain ⟨g, hg, -⟩ := later_step h hf hs
  rcases h.flight_step hs hg with ⟨key, ttl, -, hi, -⟩ | ⟨f', hf', hcontinues⟩
  · have := (List.getElem?_eq_some_iff.mp hf).1
    omega
  · obtain rfl := Option.some.inj (hf.symm.trans hf')
    exact ⟨g, hg, hcontinues⟩

/-- A computation that has ended stays so, and what it has come to stays done. -/
theorem Sound.result_next (h : c.Sound) (hs : c.step? s = some d) (hf : c.flights[i]? = some f)
    (hr : f.stage.result? = some r) :
    ∃ g, d.flights[i]? = some g ∧ g.key = f.key ∧ g.stage.result? = some r ∧
      (f.stage = .done r → g.stage = .done r) := by
  obtain ⟨g, hg, hkey, -, hstage⟩ := h.flight_next hs hf
  refine ⟨g, hg, hkey, ?_, fun hdone => ?_⟩
  · rcases hstage with hstage | hadvances
    · exact (congrArg FlightStage.result? hstage).trans hr
    · exact hadvances.keeps hr
  · rw [hdone] at hstage
    rcases hstage with hstage | hadvances
    · exact hstage
    · cases hadvances

/-- A new flight is registered for a key, with the lifetime that its value is given. -/
def Begins (i : ℕ) (key : String) (lifetime : τ) (c : Cache τ V) (s : CacheStep τ V) : Prop :=
  ∃ ttl, s = .request key ttl ∧ i = c.flights.length ∧ lifetime = ttl.getD c.limits.defaultTtl

/-- A flight at the end of a run was there at its beginning, or one of its steps began it. -/
theorem flight_origin (hsound : b.Sound) (h : b.run? steps = some c) (hf : c.flights[i]? = some f) :
    (∃ f₀, b.flights[i]? = some f₀ ∧ f.key = f₀.key) ∨ b.Sometime (Begins i f.key f.ttl) steps := by
  have hall := run_induction (P := fun steps c => ∀ f, c.flights[i]? = some f →
    (∃ f₀, b.flights[i]? = some f₀ ∧ f.key = f₀.key) ∨ b.Sometime (Begins i f.key f.ttl) steps)
    (fun f hf => .inl ⟨f, hf, rfl⟩) (fun taken c s d hrun hs ih g hg => ?_) h
  · exact hall f hf
  rcases (hsound.run hrun).flight_step hs hg with
    ⟨key, ttl, rfl, hi, -, -, rfl⟩ | ⟨f, hf, hkey, httl, -⟩
  · exact .inr (sometime_concat hrun ⟨ttl, rfl, hi, rfl⟩)
  · rw [hkey, httl]
    exact (ih f hf).imp_right fun h => h.append [s]

/-- What a run has on record about a flight. -/
structure FlightRecord (b : Cache τ V) (steps : List (CacheStep τ V)) (i : ℕ) (f : Flight τ V) :
    Prop where
  begun : b.Sometime (Begins i f.key f.ttl) steps
  ended : ∀ r, f.stage.result? = some r → Ended steps i f.key r
  stamped : ∀ v now, f.stage = .stamped v now →
    b.Sometime (fun c s => s = .stamp i ∧ c.now = now) steps

theorem flight_recorded (hsound : b.Sound) (hnone : b.flights = []) (h : b.run? steps = some c)
    (hf : c.flights[i]? = some f) : b.FlightRecord steps i f := by
  have hbegun : b.Sometime (Begins i f.key f.ttl) steps := by
    rcases flight_origin hsound h hf with ⟨f₀, hf₀, -⟩ | hbegun
    · rw [hnone] at hf₀
      cases hf₀
    · exact hbegun
  have hall := run_induction (P := fun steps c => ∀ f, c.flights[i]? = some f →
    (∀ r, f.stage.result? = some r → Ended steps i f.key r) ∧
      ∀ v now, f.stage = .stamped v now →
        b.Sometime (fun c s => s = .stamp i ∧ c.now = now) steps)
    ?_ (fun taken c s d hrun hs ih g hg => ?_) h
  · obtain ⟨hended, hstamped⟩ := hall f hf
    exact ⟨hbegun, hended, hstamped⟩
  · intro f hf
    rw [hnone] at hf
    cases hf
  rcases (hsound.run hrun).flight_step hs hg with
    ⟨key, ttl, -, -, -, -, rfl⟩ | ⟨f, hf, hkey, -, hstage⟩
  · constructor
    · rintro r ⟨⟩
    · rintro v now ⟨⟩
  · obtain ⟨hended, hstamped⟩ := ih f hf
    rw [hkey]
    refine ⟨fun r hr => ?_, fun v now hnow => ?_⟩
    · rcases hstage with hstage | hadvances
      · exact (hended r (hstage ▸ hr)).append [s]
      · rcases hadvances.ended hr with hbefore | hend
        · exact (hended r hbefore).append [s]
        · exact hend.imp_left (List.mem_append_right taken)
    · rcases hstage with hstage | hadvances
      · exact (hstamped v now (hstage ▸ hnow)).append [s]
      · rw [hnow] at hadvances
        generalize f.stage = stage at hadvances
        cases hadvances
        exact sometime_concat hrun ⟨rfl, rfl⟩

/-- A caller's patience runs out while its flight is not done. -/
def GivesUp (k : ℕ) (c : Cache τ V) (s : CacheStep τ V) : Prop :=
  s = .giveUp k ∧ ∃ i f, c.callers[k]? = some (.waiting i) ∧ c.flights[i]? = some f ∧
    f.stage.isDone = false

/-- A caller takes the result of a flight. -/
def Takes (k i : ℕ) (r : Except Failure V) (c : Cache τ V) (s : CacheStep τ V) : Prop :=
  s = .collect k ∧ ∃ a f, c.callers[k]? = some a ∧ a.attachedTo i ∧ c.flights[i]? = some f ∧
    f.stage = .done r

/-- A caller has left its flight: its patience had run out, or that seemed so. -/
def HasLeft (b : Cache τ V) (steps : List (CacheStep τ V)) (k : ℕ) : Prop :=
  b.Sometime (GivesUp k) steps ∨ ∃ i, b.Sometime (Takes k i (.error .outOfTime)) steps

/-- What a run has on record about a caller. -/
def CallerRecord (b : Cache τ V) (steps : List (CacheStep τ V)) (k : ℕ) : Caller V → Prop
  | .leaving _ => b.HasLeft steps k
  | .cancelling _ => b.HasLeft steps k
  | .answered r => (∃ v, r = .ok v) ∨ (∃ i, b.Sometime (Takes k i r) steps) ∨
      (∃ key, r = .error (Cache.gaveUp key)) ∧ b.HasLeft steps k
  | _ => True

theorem CallerRecord.append {a : Caller V} (h : b.CallerRecord steps k a)
    (more : List (CacheStep τ V)) : b.CallerRecord (steps ++ more) k a := by
  have hleft (h : b.HasLeft steps k) : b.HasLeft (steps ++ more) k :=
    h.imp (fun h => h.append more) fun ⟨i, h⟩ => ⟨i, h.append more⟩
  cases a with
  | leaving i => exact hleft h
  | cancelling i => exact hleft h
  | answered r =>
    exact h.imp_right fun h => h.imp (fun ⟨i, h⟩ => ⟨i, h.append more⟩) fun h => ⟨h.1, hleft h.2⟩
  | submitting i => trivial
  | refused i => trivial
  | waiting i => trivial

theorem CallerRecord.next {a a' : Caller V} (h : b.CallerRecord steps k a)
    (hrun : b.run? steps = some c) (ha : c.callers[k]? = some a) (hproceeds : c.Proceeds k s a a') :
    b.CallerRecord (steps ++ [s]) k a' := by
  have hkept := h.append [s]
  cases hproceeds with
  | queued i => trivial
  | refused i => trivial
  | told hf hdone hr =>
    exact .inr (.inl ⟨_, sometime_concat hrun ⟨rfl, _, _, ha, by simp [Caller.attachedTo], hf, hdone⟩⟩)
  | outOfTime hf hdone =>
    exact .inr ⟨_, sometime_concat hrun ⟨rfl, _, _, ha, by simp [Caller.attachedTo], hf, hdone⟩⟩
  | refusal hf hdone =>
    exact .inr (.inl ⟨_, sometime_concat hrun ⟨rfl, _, _, ha, by simp [Caller.attachedTo], hf, hdone⟩⟩)
  | gaveUp hf hdone => exact .inl (sometime_concat hrun ⟨rfl, _, _, ha, hf, hdone⟩)
  | left hf => exact .inr (.inr ⟨⟨_, rfl⟩, hkept⟩)
  | deserted hf hdone => exact hkept
  | cancelled hf => exact .inr (.inr ⟨⟨_, rfl⟩, hkept⟩)

end Cache

end CohortAnalytics
