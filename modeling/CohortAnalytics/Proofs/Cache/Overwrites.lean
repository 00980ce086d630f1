import CohortAnalytics.Proofs.Cache.Commits

/-!
The order in which the values of one key are stored. A flight that is overtaken by a newer one of its
key has no caller left; it stores its value nevertheless, and replaces what the newer one stored.
-/

namespace CohortAnalytics

namespace Cache

variable {τ V : Type}

def keys (c : Cache τ V) : List String := c.flights.map Flight.key

/-- A flight in the table is the newest of its key. -/
def TablesNewest (c : Cache τ V) : Prop :=
  ∀ key i, c.inFlight.find? key = some i → ∀ j, c.keys[j]? = some key → j ≤ i

theorem tablesNewest_initial (limits : CacheLimits τ) (now : τ) :
    ({ limits, now } : Cache τ V).TablesNewest := by
  intro key i hfind
  cases hfind

theorem keys_modify (l : List (Flight τ V)) (i : ℕ) {g : Flight τ V → Flight τ V}
    (hg : ∀ f, (g f).key = f.key) : (l.modify i g).map Flight.key = l.map Flight.key := by
  apply List.ext_getElem?
  intro j
  rw [List.getElem?_map, List.getElem?_map, List.getElem?_modify]
  cases l[j]? with
  | none => rfl
  | some f =>
    by_cases hij : i = j
    · simp [hij, hg]
    · simp [hij]

/-- The same flights, and none is new in the table. -/
structure Registers (c d : Cache τ V) : Prop where
  keys : d.keys = c.keys
  inFlight : ∀ key i, d.inFlight.find? key = some i → c.inFlight.find? key = some i

theorem Registers.trans {b c d : Cache τ V} (h : b.Registers c) (h' : c.Registers d) :
    b.Registers d :=
  ⟨h'.keys.trans h.keys, fun key i hfind => h.inFlight key i (h'.inFlight key i hfind)⟩

theorem Registers.setCaller {c d : Cache τ V} (h : c.Registers d) (k : ℕ) (a : Caller V) :
    c.Registers (d.setCaller k a) := ⟨h.keys, h.inFlight⟩

theorem registers_setStage (c : Cache τ V) (i : ℕ) (stage : FlightStage τ V) :
    c.Registers (c.setStage i stage) := ⟨keys_modify _ _ fun _ => rfl, fun _ _ => id⟩

theorem registers_dropFlight (c : Cache τ V) (key : String) (i : ℕ) :
    c.Registers (c.dropFlight key i) :=
  ⟨congrArg (List.map Flight.key) (dropFlight_flights c key i),
    fun _ _ hfind => (find?_dropFlight_eq_some.mp hfind).1⟩

theorem TablesNewest.registers {c d : Cache τ V} (h : c.TablesNewest) (hd : c.Registers d) :
    d.TablesNewest := by
  intro key i hfind j hj
  rw [hd.keys] at hj
  exact h key i (hd.inFlight key i hfind) j hj

theorem TablesNewest.register {c : Cache τ V} (h : c.TablesNewest) (key : String) (ttl : Option τ) :
    (c.register key ttl).TablesNewest := by
  have hkeys : (c.register key ttl).keys = c.keys ++ [key] := by simp [keys, Cache.register]
  have hlength : c.keys.length = c.flights.length := List.length_map _
  intro other i hfind j hj
  rw [hkeys] at hj
  replace hfind : (c.inFlight.put key c.flights.length).find? other = some i := hfind
  have hlt : j < c.flights.length + 1 := by
    simpa [hlength] using (List.getElem?_eq_some_iff.mp hj).1
  by_cases hother : other = key
  · subst hother
    rw [Entries.find?_put_self, Option.some.injEq] at hfind
    omega
  · rw [Entries.find?_put_of_ne hother] at hfind
    rcases Nat.lt_succ_iff_lt_or_eq.mp hlt with hold | rfl
    · rw [List.getElem?_append_left (by omega)] at hj
      exact h other i hfind j hj
    · rw [← hlength, List.getElem?_concat_length, Option.some.injEq] at hj
      exact absurd hj.symm hother

/-- An unsettled flight with a newer one of its key has no caller left. -/
theorem TablesNewest.deserted {c : Cache τ V} (h : c.TablesNewest) (hsound : c.Sound) {i j : ℕ}
    {f g : Flight τ V} (hf : c.flights[i]? = some f) (hg : c.flights[j]? = some g)
    (hlt : i < j) (hkey : g.key = f.key) (hlive : f.stage.isLive = true) : c.attached i = 0 := by
  by_contra hwaiting
  have htabled := (hsound.flight i f hf).tabled.mpr ⟨hlive, Nat.pos_of_ne_zero hwaiting⟩
  have hle : j ≤ i := by
    apply h f.key i htabled j
    rw [keys, List.getElem?_map, hg, Option.map_some, hkey]
  omega

variable [Clock τ]

theorem TablesNewest.request {c : Cache τ V} (h : c.TablesNewest) (key : String) (ttl : Option τ) :
    (c.request key ttl).TablesNewest := by
  rcases request_cases c key ttl with ⟨v, -, heq⟩ | ⟨i, -, -, heq⟩ | ⟨-, -, heq⟩
  all_goals rw [heq]
  · exact h.registers ⟨rfl, fun _ _ => id⟩
  · exact h.registers ⟨keys_modify _ _ fun _ => rfl, fun _ _ => id⟩
  · have hmissed : c.Registers { (c.get key).2 with misses := c.misses + 1 } :=
      ⟨rfl, fun _ _ => id⟩
    exact (h.registers hmissed).register key ttl

theorem TablesNewest.step {c d : Cache τ V} (h : c.TablesNewest) {s : CacheStep τ V}
    (hs : c.step? s = some d) : d.TablesNewest := by
  cases s with
  | request key ttl =>
    obtain rfl := Option.some.inj hs
    exact h.request key ttl
  | submit k =>
    obtain ⟨i, -, ⟨-, rfl⟩ | ⟨-, rfl⟩⟩ := submit?_cases hs
    all_goals exact h.registers ((registers_setStage c i _).setCaller k _)
  | start i =>
    obtain ⟨f, -, -, rfl⟩ := start?_cases hs
    exact h.registers (registers_setStage c i _)
  | finish i r =>
    obtain ⟨f, -, -, ⟨v, -, rfl⟩ | ⟨e, -, rfl⟩⟩ := finish?_cases hs
    all_goals exact h.registers (registers_setStage c i _)
  | stamp i =>
    obtain ⟨f, v, -, -, rfl⟩ := stamp?_cases hs
    exact h.registers (registers_setStage c i _)
  | settle i =>
    obtain ⟨f, -, ⟨v, now, -, rfl⟩ | ⟨e, -, rfl⟩⟩ := settle?_cases hs
    · have hcommitted : c.Registers (c.commit f v now) := ⟨rfl, fun _ _ => id⟩
      exact h.registers ((hcommitted.trans (registers_dropFlight _ f.key i)).trans
        (registers_setStage _ i _))
    · exact h.registers ((registers_dropFlight c f.key i).trans (registers_setStage _ i _))
  | publish i =>
    obtain ⟨f, r, -, -, rfl⟩ := publish?_cases hs
    exact h.registers (registers_setStage c i _)
  | collect k =>
    obtain ⟨i, f, r, -, -, ⟨-, ⟨-, rfl⟩ | ⟨-, rfl⟩⟩ | ⟨-, rfl⟩⟩ := collect?_cases hs
    all_goals exact h
  | giveUp k =>
    obtain ⟨i, f, -, -, -, rfl⟩ := giveUp?_cases hs
    exact h
  | detach k =>
    obtain ⟨i, f, -, -, hcase⟩ := detach?_cases hs
    have hleft : c.Registers (c.modifyFlight i fun g => { g with waiters := f.waiters - 1 }) :=
      ⟨keys_modify _ _ fun _ => rfl, fun _ _ => id⟩
    rcases hcase with ⟨-, -, rfl⟩ | ⟨-, rfl⟩
    · exact h.registers ((hleft.trans (registers_dropFlight _ f.key i)).setCaller k _)
    · exact h.registers (hleft.setCaller k _)
  | cancelToken k =>
    obtain ⟨i, f, -, -, rfl⟩ := cancelToken?_cases hs
    exact h.registers ⟨keys_modify _ _ fun _ => rfl, fun _ _ => id⟩
  | _ =>
    obtain rfl := Option.some.inj hs
    exact h

theorem TablesNewest.run {c d : Cache τ V} (h : c.TablesNewest) {steps : List (CacheStep τ V)}
    (hs : c.run? steps = some d) : d.TablesNewest :=
  run_induction (P := fun _ c => c.TablesNewest) h (fun _ _ _ _ _ hstep ih => ih.step hstep) hs

/-- Of two stored values of a key the later one is of a newer flight, or of an older one that has no
caller left. -/
def InOrder (m m' : Commit τ V) : Prop :=
  m.key = m'.key → m.flight < m'.flight ∨ m'.flight < m.flight ∧ m'.waiting = 0

/-- After a flight has stored its value, an older one of its key stores only once it is deserted. -/
theorem inOrder_of_mem {c d : Cache τ V} (h : c.TablesNewest) (hsound : c.Sound) {s : CacheStep τ V}
    (hs : c.step? s = some d) {m m' : Commit τ V} (hm : c.committed? s = some m)
    {rest : List (CacheStep τ V)} (hm' : m' ∈ d.commits rest) : InOrder m m' := by
  intro hkey
  obtain ⟨i, f, v, now, rfl, hf, hstage, rfl⟩ := committed?_cases hm
  obtain ⟨g, hg, hlater⟩ := later_step hsound hf hs
  have hsettled : g.stage.isLive = false := by
    obtain ⟨f', hf', ⟨v', now', hstage', rfl⟩ | ⟨e, hstage', -⟩⟩ := settle?_cases hs
    · obtain rfl := Option.some.inj (hf'.symm.trans hf)
      rw [flights_setStage (f := f') (by rw [dropFlight_flights]; exact hf')] at hg
      rw [← Option.some.inj hg]
      rfl
    · obtain rfl := Option.some.inj (hf'.symm.trans hf)
      rw [hstage] at hstage'
      cases hstage'
  obtain ⟨taken, b, f', v', now', hrun, hf', hstage', hkey', hwaiting⟩ := exists_of_mem_commits hm'
  obtain ⟨g', hg', hlater'⟩ := later_run (hsound.step hs) hg hrun
  rcases Nat.lt_trichotomy i m'.flight with hlt | rfl | hlt
  · exact .inl hlt
  · rw [(hsound.step hs).isLive_of_mem_commits hm' hg] at hsettled
    cases hsettled
  · refine .inr ⟨hlt, hwaiting.trans ?_⟩
    refine ((h.step hs).run hrun).deserted ((hsound.step hs).run hrun) hf' hg' hlt ?_ ?_
    · rw [hlater'.key, hlater.key, hkey']
      exact hkey
    · rw [hstage']
      rfl

theorem pairwise_commits {c : Cache τ V} (h : c.TablesNewest) (hsound : c.Sound)
    (steps : List (CacheStep τ V)) : (c.commits steps).Pairwise InOrder := by
  induction steps generalizing c with
  | nil => exact .nil
  | cons s rest ih =>
    cases hs : c.step? s with
    | none =>
      rw [commits, hs, Option.elim_none, List.append_nil]
      cases c.committed? s with
      | none => exact .nil
      | some m => exact List.pairwise_singleton _ m
    | some d =>
      rw [commits_cons hs, List.pairwise_append]
      refine ⟨?_, ih (h.step hs) (hsound.step hs), fun m hm m' hm' => ?_⟩
      · cases c.committed? s with
        | none => exact .nil
        | some m => exact List.pairwise_singleton _ m
      · exact inOrder_of_mem h hsound hs (Option.mem_toList.mp hm) hm'

/-- Whatever the order of steps: a value that is stored after that of a newer flight is of a flight
that nobody waits for. -/
theorem stores_in_order_or_deserted (limits : CacheLimits τ) (now : τ)
    (steps : List (CacheStep τ V)) :
    (({ limits, now } : Cache τ V).commits steps).Pairwise fun m m' =>
      m.key = m'.key → m.flight < m'.flight ∨ m'.flight < m.flight ∧ m'.waiting = 0 :=
  pairwise_commits (tablesNewest_initial limits now) (sound_initial limits now) steps

/-- A flight that its caller has left finishes late and stores its value over that of the flight that
was registered after it. -/
theorem overtaken_overwrites :
    ¬ ∀ (limits : CacheLimits Number) (now : Number) (steps : List (CacheStep Number String))
      (c : Cache Number String), ({ limits, now } : Cache Number String).run? steps = some c →
      (({ limits, now } : Cache Number String).commits steps).Pairwise fun m m' =>
        m.key = m'.key → m.flight < m'.flight := by
  intro h
  generalize hsteps : ([.request "k" none, .submit 0, .start 0, .giveUp 0, .detach 0, .cancelToken 0,
    .request "k" none, .submit 1, .start 1, .finish 1 (.ok "new"), .stamp 1, .settle 1,
    .finish 0 (.ok "old"), .stamp 0, .settle 0] : List (CacheStep Number String)) = steps
  have hrun : (({ limits := ⟨2, .int 60, by decide⟩, now := .int 0 } : Cache Number String).run?
      steps).isSome = true := by
    rw [← hsteps]
    decide +kernel
  have hstored : (({ limits := ⟨2, .int 60, by decide⟩, now := .int 0 } :
      Cache Number String).commits steps).map (fun m => (m.key, m.flight)) = [("k", 1), ("k", 0)] := by
    rw [← hsteps]
    decide +kernel
  obtain ⟨c, hc⟩ := Option.isSome_iff_exists.mp hrun
  have hordered := h _ _ steps c hc
  have hpairs : ([("k", 1), ("k", 0)] : List (String × ℕ)).Pairwise fun m m' =>
      m.1 = m'.1 → m.2 < m'.2 := by
    rw [← hstored, List.pairwise_map]
    exact hordered
  revert hpairs
  decide

end Cache

end CohortAnalytics
