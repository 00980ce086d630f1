import CohortAnalytics.Proofs.Cache.History
import CohortAnalytics.Proofs.Cache.Invalidation
import CohortAnalytics.Proofs.Cache.Overwrites

/-!
What comes of a computation that fails. Whoever waits for it is told, nothing is stored and the next
caller does not meet it; but a wait that ran out inside the computation is taken for the caller's own.
-/

namespace CohortAnalytics

namespace Cache

variable {τ V : Type} {b c d : Cache τ V} {s : CacheStep τ V} {steps more : List (CacheStep τ V)}
variable {i k : ℕ} {f : Flight τ V} {e : Failure} {key : String}

/-- Where a caller is that has waited for a flight whose computation failed, and goes on waiting. -/
def Hears (i : ℕ) (f : Flight τ V) (e : Failure) : Caller V → Prop
  | .waiting j => j = i
  | .leaving j => j = i ∧ e = .outOfTime ∧ f.stage = .done (.error e)
  | .answered r => r = delivered f.key (.error e)
  | _ => False

/-- A failure that is done is the one that its caller hears of next. -/
theorem Hears.next {g : Flight τ V} {a a' : Caller V} (h : Hears i f e a)
    (hf : c.flights[i]? = some f) (hr : f.stage.result? = some (.error e)) (hkey : g.key = f.key)
    (hdone : f.stage = .done (.error e) → g.stage = .done (.error e))
    (hproceeds : c.Proceeds k s a a') (hgiveUp : s ≠ .giveUp k) : Hears i g e a' := by
  cases hproceeds with
  | told hf' hdone' hne =>
    obtain rfl := h
    obtain rfl := Option.some.inj (hf.symm.trans hf')
    rw [hdone'] at hr
    obtain rfl := Option.some.inj hr
    exact (delivered_of_ne g.key hne).symm
  | outOfTime hf' hdone' =>
    obtain rfl := h
    obtain rfl := Option.some.inj (hf.symm.trans hf')
    rw [hdone'] at hr
    obtain rfl := Except.error.inj (Option.some.inj hr)
    exact ⟨rfl, rfl, hdone hdone'⟩
  | left hf' =>
    obtain ⟨rfl, rfl, -⟩ := h
    obtain rfl := Option.some.inj (hf.symm.trans hf')
    rw [Hears, hkey]
    rfl
  | deserted hf' hnot =>
    obtain ⟨rfl, rfl, hdone'⟩ := h
    obtain rfl := Option.some.inj (hf.symm.trans hf')
    rw [hdone'] at hnot
    cases hnot
  | gaveUp => exact absurd rfl hgiveUp
  | queued => exact h.elim
  | refused => exact h.elim
  | refusal => exact h.elim
  | cancelled => exact h.elim

theorem Hears.congr {g : Flight τ V} {a : Caller V} (h : Hears i f e a) (hkey : g.key = f.key)
    (hdone : f.stage = .done (.error e) → g.stage = .done (.error e)) : Hears i g e a := by
  cases a with
  | waiting j => exact h
  | leaving j => exact ⟨h.1, h.2.1, hdone h.2.2⟩
  | answered r => exact h.trans (by rw [hkey])
  | submitting j => exact h
  | refused j => exact h
  | cancelling j => exact h

/-- The flight of a failure, and a caller that hears of it. -/
def Failing (i k : ℕ) (key : String) (e : Failure) (c : Cache τ V) : Prop :=
  ∃ f a, c.flights[i]? = some f ∧ f.key = key ∧ f.stage.result? = some (.error e) ∧
    c.callers[k]? = some a ∧ Hears i f e a

variable [Clock τ]

theorem Failing.step (h : c.Failing i k key e) (hsound : c.Sound) (hs : c.step? s = some d)
    (hgiveUp : s ≠ .giveUp k) : d.Failing i k key e := by
  obtain ⟨f, a, hf, rfl, hr, ha, hears⟩ := h
  obtain ⟨g, hg, hkey, hresult, hdone⟩ := hsound.result_next hs hf hr
  obtain ⟨a', ha', rfl | hproceeds⟩ := caller_next hs ha
  · exact ⟨g, a', hg, hkey, hresult, ha', hears.congr hkey hdone⟩
  · exact ⟨g, a', hg, hkey, hresult, ha', hears.next hf hr hkey hdone hproceeds hgiveUp⟩

theorem Failing.attempt (h : c.Failing i k key e) (hsound : c.Sound)
    (hgiveUp : .giveUp k ∉ more) : (c.attempt more).Failing i k key e := by
  refine (attempt_keeps (q := fun c => c.Failing i k key e ∧ c.Sound)
    (fun s hmem c d ⟨h, hsound⟩ hs => ?_) ⟨h, hsound⟩).1
  exact ⟨h.step hsound hs (ne_of_mem_of_not_mem hmem hgiveUp), hsound.step hs⟩

end Cache

end CohortAnalytics
