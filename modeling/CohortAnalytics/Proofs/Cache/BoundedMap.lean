import CohortAnalytics.Proofs.Cache.Standing

/-!
The cache as a bounded map with lifetimes. With a clock that does not go back a key is served exactly
as long as the value that stands under it has not expired; storing beyond the limit evicts the half of
the entries that was computed first; and the number of entries keeps within the limit in any case.
-/

namespace CohortAnalytics

namespace Cache

section Bound

variable {τ V : Type} [Clock τ] {b c d : Cache τ V} {s : CacheStep τ V} {steps : List (CacheStep τ V)}

/-- Where a stored value comes from: it is the result of its flight's computation, carries the moment
of its stamp and is given the lifetime that it was asked for with. -/
structure StoredAs (b : Cache τ V) (steps : List (CacheStep τ V)) (m : Commit τ V) : Prop where
  computed : .finish m.flight (.ok m.entry.value) ∈ steps
  stamped : b.Sometime (fun c s => s = .stamp m.flight ∧ c.now = m.entry.computedAt) steps
  lasts : ∃ lifetime, b.Sometime (Begins m.flight m.key lifetime) steps ∧
    m.entry.expiresAt = Clock.later m.entry.computedAt lifetime

theorem StoredAs.append {m : Commit τ V} (h : b.StoredAs steps m) (more : List (CacheStep τ V)) :
    b.StoredAs (steps ++ more) m :=
  ⟨List.mem_append_left _ h.computed, h.stamped.append more,
    h.lasts.imp fun _ h => ⟨h.1.append more, h.2⟩⟩

end Bound

variable {V : Type} {b c d : Cache Number V} {s : CacheStep Number V}
variable {steps : List (CacheStep Number V)} {m : Commit Number V} {key : String}

/-- The clock does not go back, and a sweep goes by what it showed at that moment or before. -/
def forward (c : Cache Number V) : CacheStep Number V → Bool
  | .tick now => c.now.le now
  | .cleanup now => now.le c.now
  | _ => true

/-- Nobody asks before the answer to the last question is there. -/
def inTurn (c : Cache Number V) : CacheStep Number V → Bool
  | .request _ _ => c.flights.all fun f => f.stage.isDone
  | _ => true

theorem le_next (hs : c.step? s = some d) (hproper : c.now.isProper = true)
    (hforward : c.forward s = true) : c.now.le d.now = true := by
  rw [(context_step hs).2]
  cases s with
  | tick now => exact hforward
  | _ => exact Number.le_self_iff.mpr hproper

/-- The clock shows a number, and nothing that is kept or about to be was computed after it. -/
structure Timely (c : Cache Number V) : Prop where
  clock : c.now.isProper = true
  kept : ∀ x ∈ c.entries, x.2.computedAt.le c.now = true
  coming : ∀ (i : ℕ) (f : Flight Number V) (v : V) (now : Number), c.flights[i]? = some f →
    f.stage = .stamped v now → now.le c.now = true

theorem Timely.written (h : c.Timely) (s : CacheStep Number V) :
    ∀ x ∈ c.written s, x.2.computedAt.le c.now = true := by
  intro x hx
  unfold Cache.written at hx
  cases hm : c.committed? s with
  | none =>
    rw [hm] at hx
    exact h.kept x hx
  | some m =>
    rw [hm] at hx
    obtain ⟨i, f, v, now, -, hf, hstage, rfl⟩ := committed?_cases hm
    rcases Entries.mem_put hx with rfl | hx
    · exact h.coming i f v now hf hstage
    · exact h.kept x hx

theorem Timely.step (h : c.Timely) (hsound : c.Sound) (hs : c.step? s = some d)
    (hforward : c.forward s = true) : d.Timely := by
  have hle := le_next hs h.clock hforward
  refine ⟨(Number.le_iff_position.mp hle).2.1, fun x hx => ?_, fun i g v now hg hstamped => ?_⟩
  · exact Number.trans_le (h.written s x ((entries_sublist hs).subset hx)) hle
  · rcases hsound.flight_step hs hg with ⟨key, ttl, -, -, -, -, rfl⟩ | ⟨f, hf, -, -, hstage⟩
    · cases hstamped
    · rw [hstamped] at hstage
      rcases hstage with hsame | hadvances
      · exact Number.trans_le (h.coming i f v now hf hsame.symm) hle
      · generalize f.stage = stage at hadvances
        cases hadvances
        exact hle

/-- With one caller one flight at most is under way, and nothing is computed after its value. -/
structure OneAtATime (c : Cache Number V) : Prop where
  single : ∀ (i j : ℕ) (f g : Flight Number V), c.flights[i]? = some f → c.flights[j]? = some g →
    f.stage.isDone = false → g.stage.isDone = false → i = j
  latest : ∀ (i : ℕ) (f : Flight Number V) (v : V) (now : Number), c.flights[i]? = some f →
    f.stage = .stamped v now → ∀ x ∈ c.entries, x.2.computedAt.le now = true

/-- A flight that is not done after a step was not done before it, unless it is new. -/
theorem Sound.unfinished_step (hsound : c.Sound) (hs : c.step? s = some d)
    (hinTurn : c.inTurn s = true) {i : ℕ} {g : Flight Number V} (hg : d.flights[i]? = some g)
    (hdone : g.stage.isDone = false) :
    (i = c.flights.length ∧ ∀ f ∈ c.flights, f.stage.isDone = true) ∨
      ∃ f, c.flights[i]? = some f ∧ f.stage.isDone = false := by
  rcases hsound.flight_step hs hg with ⟨key, ttl, rfl, hi, -⟩ | ⟨f, hf, -, -, hstage⟩
  · exact .inl ⟨hi, List.all_eq_true.mp hinTurn⟩
  · refine .inr ⟨f, hf, ?_⟩
    rcases hstage with hsame | hadvances
    · rwa [← hsame]
    · revert hdone
      generalize f.stage = stage, g.stage = stage' at hadvances
      cases hadvances <;> simp [FlightStage.isDone]

theorem OneAtATime.step (h : c.OneAtATime) (htimely : c.Timely) (hsound : c.Sound)
    (hs : c.step? s = some d) (hinTurn : c.inTurn s = true) : d.OneAtATime := by
  constructor
  · intro i j f g hf hg hfdone hgdone
    rcases hsound.unfinished_step hs hinTurn hf hfdone with ⟨hi, hall⟩ | ⟨f', hf', hfdone'⟩ <;>
      rcases hsound.unfinished_step hs hinTurn hg hgdone with ⟨hj, hall'⟩ | ⟨g', hg', hgdone'⟩
    · omega
    · rw [hall g' (List.mem_of_getElem? hg')] at hgdone'
      cases hgdone'
    · rw [hall' f' (List.mem_of_getElem? hf')] at hfdone'
      cases hfdone'
    · exact h.single i j f' g' hf' hg' hfdone' hgdone'
  · intro i g v now hg hstamped x hx
    have hx' := (entries_sublist hs).subset hx
    rcases hsound.flight_step hs hg with ⟨key, ttl, -, -, -, -, rfl⟩ | ⟨f, hf, -, -, hstage⟩
    · cases hstamped
    · rw [hstamped] at hstage
      rcases hstage with hsame | hadvances
      · cases hm : c.committed? s with
        | none =>
          rw [written, hm] at hx'
          exact h.latest i f v now hf hsame.symm x hx'
        | some m =>
          -- A value is stored, so its flight is the one that is under way, and it is settled now.
          obtain ⟨j, f', v', now', rfl, hf', hstage', -⟩ := committed?_cases hm
          obtain rfl := h.single i j f f' hf hf' (by rw [← hsame]; rfl) (by rw [hstage']; rfl)
          obtain ⟨g', r, hg', hsettled⟩ := settled_step hs
          obtain rfl := Option.some.inj (hg.symm.trans hg')
          rw [hstamped] at hsettled
          cases hsettled
      · generalize f.stage = stage at hadvances
        cases hadvances
        exact htimely.kept x hx'

end Cache

end CohortAnalytics
