import CohortAnalytics.Proofs.Experiment.Assignment
import CohortAnalytics.Proofs.Simulation.Session
import CohortAnalytics.Simulation.Basic

/-!
Simulated traffic as a whole: one session for each name, no name twice, and every event one of a
session's.
-/

namespace CohortAnalytics

namespace Simulation

open Draw

variable {σ : Type} {source : RandomSource σ} {buckets : Bucketing} {c : SimulationConfig}
  {experiments : List Experiment} {start finish : Stamp} {s s' : σ} {ss : List SimulatedSession}

theorem sessionName_injective : Function.Injective sessionName := by
  intro i j h
  have hdigits (n : ℕ) : Nat.ofDigitChars 10
      (List.replicate (6 - (Nat.toDigits 10 n).length) '0' ++ Nat.toDigits 10 n) 0 = n := by
    rw [Nat.ofDigitChars_append, Nat.ofDigitChars_replicate_zero, Nat.mul_zero,
      Nat.ofDigitChars_ten_toDigits]
  have hpadded := congrArg String.toList h
  simp only [sessionName, String.toList_append, String.toList_ofList, List.append_cancel_left_eq]
    at hpadded
  rw [← hdigits i, hpadded, hdigits j]

def sessionNames (c : SimulationConfig) : List String :=
  (List.range c.sessions.toNat).map sessionName

theorem nodup_sessionNames (c : SimulationConfig) : (sessionNames c).Nodup :=
  List.nodup_range.map sessionName_injective

theorem sessionsFrom_ok {names : List String}
    (h : sessionsFrom source buckets c experiments start names s = .ok (ss, s')) :
    List.Forall₂ (fun name r => r.IsOf buckets c experiments start name) names ss := by
  induction names generalizing s s' ss with
  | nil =>
    obtain rfl := pure_ok h
    exact .nil
  | cons name rest ih =>
    obtain ⟨r, s₁, hr, h⟩ := Draw.bind_ok h
    obtain ⟨others, s₂, hothers, h⟩ := Draw.bind_ok h
    obtain rfl := pure_ok h
    exact .cons (session_ok hr) (ih hothers)

theorem startOf_ok (h : startOf c finish = .ok start) : start.offset = finish.offset ∧
    (start.wall.micros : ℤ) =
      finish.wall.micros - c.days * secondsPerDay * microsPerSecond := by
  rw [startOf] at h
  split at h
  case h_1 wall hwall =>
    obtain rfl := Except.ok.inj h
    exact ⟨rfl, Window.micros_of_shift? hwall⟩
  case h_2 => cases h

theorem sessions_ok (h : sessions source buckets c experiments finish s = .ok (ss, s')) :
    ∃ start, startOf c finish = .ok start ∧
      List.Forall₂ (fun name r => r.IsOf buckets c (ownExperiments c experiments) start name)
        (sessionNames c) ss := by
  obtain ⟨start, s₁, hstart, h⟩ := Draw.bind_ok h
  exact ⟨start, lift_ok hstart, sessionsFrom_ok h⟩

theorem sessions_isOf (h : sessions source buckets c experiments finish s = .ok (ss, s')) :
    ∃ start, startOf c finish = .ok start ∧ ss.map SimulatedSession.name = sessionNames c ∧
      ∀ r ∈ ss, r.IsOf buckets c (ownExperiments c experiments) start r.name := by
  obtain ⟨start, hstart, hforall⟩ := sessions_ok h
  refine ⟨start, hstart, ?_, fun r hr => ?_⟩
  · rw [← List.map_id (sessionNames c)]
    exact (map_eq_of_forall₂ (hforall.imp fun _ _ h => h.name_eq.symm)).symm
  · obtain ⟨name, -, hname⟩ := exists_of_forall₂ hforall hr
    exact hname.name_eq ▸ hname

theorem mem_inOrder {e : Event} : e ∈ inOrder ss ↔ ∃ r ∈ ss, e ∈ r.events := by
  rw [inOrder, List.mem_mergeSort, List.mem_flatMap]

theorem nodup_ids_ownExperiments (h : (experiments.map Experiment.id).Nodup) :
    ((ownExperiments c experiments).map Experiment.id).Nodup :=
  h.sublist (List.filter_sublist.map _)

theorem mem_ownExperiments {e : Experiment} :
    e ∈ ownExperiments c experiments ↔ e ∈ experiments ∧ e.site = c.site := by
  rw [ownExperiments, List.mem_filter, beq_iff_eq]

end Simulation

namespace SimulatedSession

open Simulation

variable {buckets : Bucketing} {c : SimulationConfig} {experiments : List Experiment}
  {start : Stamp} {name : String} {r : SimulatedSession} {e : Event}

theorem IsOf.opens (h : r.IsOf buckets c experiments start name) (hviews : 1 ≤ c.minPageViews) :
    ∃ first rest, r.events = first :: rest ∧ first.type = .pageView := by
  obtain ⟨views, browsed, last, hevents, hlength, hviewed, -⟩ := h.events
  cases views with
  | nil =>
    rw [List.length_nil] at hlength
    omega
  | cons first rest =>
    obtain ⟨d, htype, -, ⟨id, t, rfl⟩⟩ := hviewed first List.mem_cons_self
    exact ⟨_, _, hevents, htype⟩

theorem IsOf.ne_nil (h : r.IsOf buckets c experiments start name) (hviews : 1 ≤ c.minPageViews) :
    r.events ≠ [] := by
  obtain ⟨first, rest, hevents, -⟩ := h.opens hviews
  rw [hevents]
  exact List.cons_ne_nil _ _

/-- Whatever is not browsing belongs to a checkout. -/
theorem IsOf.drafted (h : r.IsOf buckets c experiments start name) (he : e ∈ r.events) :
    ∃ d, r.visitor.Emits d e ∧ (d.IsBrowsing ∨ r.checkedOut = true ∧
      ∃ order, d ∈ checkoutDrafts experiments r.visitor.assignments order) := by
  obtain ⟨views, browsed, last, hevents, -, hviewed, hbrowsed, hlast⟩ := h.events
  simp only [hevents, List.mem_append] at he
  rcases he with (he | he) | he
  · obtain ⟨d, htype, hdata, hemits⟩ := hviewed e he
    exact ⟨d, hemits, .inl ⟨by simp [htype, browsingTypes], hdata⟩⟩
  · obtain ⟨d, hd, hemits⟩ := hbrowsed e he
    exact ⟨d, hemits, .inl hd⟩
  · rcases hlast with ⟨-, rfl⟩ | ⟨hout, order, hlast⟩
    · exact absurd he List.not_mem_nil
    · obtain ⟨d, hd, hemits⟩ := exists_of_forall₂ hlast he
      exact ⟨d, hemits, .inr ⟨hout, order, hd⟩⟩

theorem IsOf.emitted (h : r.IsOf buckets c experiments start name) (he : e ∈ r.events) :
    ∃ d, r.visitor.Emits d e ∧ (d.IsBrowsing ∨ r.checkedOut = true) := by
  obtain ⟨d, hemits, hd⟩ := h.drafted he
  exact ⟨d, hemits, hd.imp_right And.left⟩

theorem IsOf.site_eq (h : r.IsOf buckets c experiments start name) (he : e ∈ r.events) :
    e.site = c.site := by
  obtain ⟨d, ⟨id, t, rfl⟩, -⟩ := h.emitted he
  exact h.site

theorem IsOf.session_eq (h : r.IsOf buckets c experiments start name) (he : e ∈ r.events) :
    e.session = r.name := by
  obtain ⟨d, ⟨id, t, rfl⟩, -⟩ := h.emitted he
  rfl

/-- A checkout converts the session for every experiment that it takes part in. -/
theorem IsOf.converted (h : r.IsOf buckets c experiments start name) (hout : r.checkedOut = true)
    {x : Experiment} (hx : x ∈ experiments) {variant : String}
    (hvariant : r.visitor.assignments.find? x.id = some variant) :
    ∃ e ∈ r.events, r.visitor.Emits (.conversion x) e := by
  obtain ⟨views, browsed, last, hevents, -, -, -, hlast⟩ := h.events
  rcases hlast with ⟨hnot, -⟩ | ⟨-, order, hlast⟩
  · rw [hout] at hnot
    cases hnot
  · have hdraft := conversion_mem_checkoutDrafts hx hvariant order
    obtain ⟨e, he, hemits⟩ := exists_of_forall₂ hlast.flip hdraft
    exact ⟨e, by rw [hevents]; exact List.mem_append_right _ he, hemits⟩

end SimulatedSession

end CohortAnalytics
