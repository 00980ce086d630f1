import CohortAnalytics.Cache.Step
import CohortAnalytics.Proofs.Results

/-!
What each step of the cache requires and does, and what a run keeps because each step does.
-/

namespace CohortAnalytics

namespace Cache

variable {τ V : Type} {c c' : Cache τ V}

theorem request_cases [Clock τ] (c : Cache τ V) (key : String) (ttl : Option τ) :
    (∃ v, (c.get key).1 = some v ∧ c.request key ttl =
      ({ (c.get key).2 with hits := c.hits + 1 } : Cache τ V).addCaller (.answered (.ok v))) ∨
    (∃ i, (c.get key).1 = none ∧ c.inFlight.find? key = some i ∧
      c.request key ttl = ({ (c.get key).2 with misses := c.misses + 1 } : Cache τ V).join i) ∨
    ((c.get key).1 = none ∧ c.inFlight.find? key = none ∧
      c.request key ttl =
        ({ (c.get key).2 with misses := c.misses + 1 } : Cache τ V).register key ttl) := by
  have hhits : (c.get key).2.hits = c.hits := rfl
  have hmisses : (c.get key).2.misses = c.misses := rfl
  have htable : (c.get key).2.inFlight = c.inFlight := rfl
  rw [← hhits, ← hmisses, ← htable]
  unfold request
  generalize c.get key = looked
  obtain ⟨found, c'⟩ := looked
  cases found with
  | some v => exact .inl ⟨v, rfl, rfl⟩
  | none =>
    right
    dsimp only
    cases c'.inFlight.find? key with
    | some i => exact .inl ⟨i, rfl, rfl, rfl⟩
    | none => exact .inr ⟨rfl, rfl, rfl⟩

theorem submit?_cases {k : ℕ} (h : c.submit? k = some c') :
    ∃ i, c.callers[k]? = some (.submitting i) ∧
      ((c.closed = true ∧ c' = (c.setStage i (.failed closedFailure)).setCaller k (.refused i)) ∨
        (c.closed = false ∧ c' = (c.setStage i .queued).setCaller k (.waiting i))) := by
  unfold submit? at h
  split at h
  case h_1 i hcaller =>
    refine ⟨i, hcaller, ?_⟩
    split_ifs at h with hclosed
    · exact .inl ⟨hclosed, (Option.some.inj h).symm⟩
    · exact .inr ⟨by simpa using hclosed, (Option.some.inj h).symm⟩
  case h_2 => cases h

theorem start?_cases {i : ℕ} (h : c.start? i = some c') :
    ∃ f, c.flights[i]? = some f ∧ f.stage = .queued ∧
      c' = c.setStage i (if f.cancelled then .failed (neverStarted f.key) else .running) := by
  unfold start? at h
  split at h
  case h_1 f hf =>
    split at h
    case h_1 hstage => exact ⟨f, hf, hstage, (Option.some.inj h).symm⟩
    case h_2 => cases h
  case h_2 => cases h

theorem finish?_cases {i : ℕ} {r : Except Failure V} (h : c.finish? i r = some c') :
    ∃ f, c.flights[i]? = some f ∧ f.stage = .running ∧
      ((∃ v, r = .ok v ∧ c' = c.setStage i (.returned v)) ∨
        ∃ e, r = .error e ∧ c' = c.setStage i (.failed e)) := by
  unfold finish? at h
  split at h
  case h_1 f hf =>
    split at h
    case h_1 v hstage => exact ⟨f, hf, hstage, .inl ⟨v, rfl, (Option.some.inj h).symm⟩⟩
    case h_2 e hstage => exact ⟨f, hf, hstage, .inr ⟨e, rfl, (Option.some.inj h).symm⟩⟩
    case h_3 => cases h
  case h_2 => cases h

theorem stamp?_cases {i : ℕ} (h : c.stamp? i = some c') :
    ∃ f v, c.flights[i]? = some f ∧ f.stage = .returned v ∧ c' = c.setStage i (.stamped v c.now) := by
  unfold stamp? at h
  split at h
  case h_1 f hf =>
    split at h
    case h_1 v hstage => exact ⟨f, v, hf, hstage, (Option.some.inj h).symm⟩
    case h_2 => cases h
  case h_2 => cases h

theorem settle?_cases [Clock τ] {i : ℕ} (h : c.settle? i = some c') :
    ∃ f, c.flights[i]? = some f ∧
      ((∃ v now, f.stage = .stamped v now ∧
          c' = ((c.commit f v now).dropFlight f.key i).setStage i (.settled (.ok v))) ∨
        ∃ e, f.stage = .failed e ∧ c' = (c.dropFlight f.key i).setStage i (.settled (.error e))) := by
  unfold settle? at h
  split at h
  case h_1 f hf =>
    split at h
    case h_1 v now hstage => exact ⟨f, hf, .inl ⟨v, now, hstage, (Option.some.inj h).symm⟩⟩
    case h_2 e hstage => exact ⟨f, hf, .inr ⟨e, hstage, (Option.some.inj h).symm⟩⟩
    case h_3 => cases h
  case h_2 => cases h

theorem publish?_cases {i : ℕ} (h : c.publish? i = some c') :
    ∃ f r, c.flights[i]? = some f ∧ f.stage = .settled r ∧ c' = c.setStage i (.done r) := by
  unfold publish? at h
  split at h
  case h_1 f hf =>
    split at h
    case h_1 r hstage => exact ⟨f, r, hf, hstage, (Option.some.inj h).symm⟩
    case h_2 => cases h
  case h_2 => cases h

theorem collect?_cases {k : ℕ} (h : c.collect? k = some c') :
    ∃ i f r, c.flights[i]? = some f ∧ f.stage = .done r ∧
      ((c.callers[k]? = some (.waiting i) ∧
          (r = .error .outOfTime ∧ c' = c.setCaller k (.leaving i) ∨
            r ≠ .error .outOfTime ∧ c' = c.setCaller k (.answered r))) ∨
        (c.callers[k]? = some (.refused i) ∧ c' = c.setCaller k (.answered r))) := by
  unfold collect? at h
  split at h
  case h_1 i hcaller =>
    split at h
    case h_1 hstage =>
      obtain ⟨f, hf, hdone⟩ := Option.map_eq_some_iff.mp hstage
      exact ⟨i, f, _, hf, hdone, .inl ⟨hcaller, .inl ⟨rfl, (Option.some.inj h).symm⟩⟩⟩
    case h_2 r hother hstage =>
      obtain ⟨f, hf, hdone⟩ := Option.map_eq_some_iff.mp hstage
      exact ⟨i, f, r, hf, hdone, .inl ⟨hcaller, .inr ⟨hother, (Option.some.inj h).symm⟩⟩⟩
    case h_3 => cases h
  case h_2 i hcaller =>
    split at h
    case h_1 r hstage =>
      obtain ⟨f, hf, hdone⟩ := Option.map_eq_some_iff.mp hstage
      exact ⟨i, f, r, hf, hdone, .inr ⟨hcaller, (Option.some.inj h).symm⟩⟩
    case h_2 => cases h
  case h_3 => cases h

theorem giveUp?_cases {k : ℕ} (h : c.giveUp? k = some c') :
    ∃ i f, c.callers[k]? = some (.waiting i) ∧ c.flights[i]? = some f ∧ f.stage.isDone = false ∧
      c' = c.setCaller k (.leaving i) := by
  unfold giveUp? at h
  split at h
  case h_1 i hcaller =>
    split at h
    case h_1 f hf =>
      split_ifs at h with hdone
      exact ⟨i, f, hcaller, hf, by simpa using hdone, (Option.some.inj h).symm⟩
    case h_2 => cases h
  case h_2 => cases h

theorem detach?_cases {k : ℕ} (h : c.detach? k = some c') :
    ∃ i f, c.callers[k]? = some (.leaving i) ∧ c.flights[i]? = some f ∧
      ((f.waiters - 1 = 0 ∧ f.stage.isDone = false ∧
          c' = ((c.modifyFlight i fun g => { g with waiters := f.waiters - 1 }).dropFlight f.key
            i).setCaller k (.cancelling i)) ∨
        ((f.waiters - 1 = 0 → f.stage.isDone = true) ∧
          c' = (c.modifyFlight i fun g => { g with waiters := f.waiters - 1 }).setCaller k
            (.answered (.error (gaveUp f.key))))) := by
  unfold detach? at h
  split at h
  case h_1 i hcaller =>
    obtain ⟨f, hf, rfl⟩ := Option.map_eq_some_iff.mp h
    refine ⟨i, f, hcaller, hf, ?_⟩
    unfold detach
    dsimp only
    split_ifs with hlast
    · simp only [Bool.and_eq_true, decide_eq_true_eq, Bool.not_eq_true'] at hlast
      exact .inl ⟨hlast.1, hlast.2, rfl⟩
    · simp only [Bool.and_eq_true, decide_eq_true_eq, Bool.not_eq_true', not_and,
        Bool.not_eq_false] at hlast
      exact .inr ⟨hlast, rfl⟩
  case h_2 => cases h

theorem cancelToken?_cases {k : ℕ} (h : c.cancelToken? k = some c') :
    ∃ i f, c.callers[k]? = some (.cancelling i) ∧ c.flights[i]? = some f ∧
      c' = (c.modifyFlight i fun f => { f with cancelled := true }).setCaller k
        (.answered (.error (gaveUp f.key))) := by
  unfold cancelToken? at h
  split at h
  case h_1 i hcaller =>
    obtain ⟨f, hf, rfl⟩ := Option.map_eq_some_iff.mp h
    exact ⟨i, f, hcaller, hf, rfl⟩
  case h_2 => cases h

/-- What holds at first, and is kept by every step of a run, holds at its end. -/
theorem run_induction [Clock τ] {d : Cache τ V} {steps : List (CacheStep τ V)}
    {P : List (CacheStep τ V) → Cache τ V → Prop} (hnil : P [] c)
    (hconcat : ∀ taken b s d, c.run? taken = some b → b.step? s = some d → P taken b →
      P (taken ++ [s]) d)
    (h : c.run? steps = some d) : P steps d :=
  foldlM_induction hnil hconcat h

end Cache

end CohortAnalytics
