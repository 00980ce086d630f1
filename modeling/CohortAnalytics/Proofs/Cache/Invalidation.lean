import CohortAnalytics.Proofs.Cache.Commits

/-!
What dropping an entry is worth. From then on a cached value of its key is one that was stored since;
a computation that was under way may still store the value it began before.
-/

namespace CohortAnalytics

/-- Drops what is cached under a key. -/
def CacheStep.Drops {τ V : Type} (key : String) : CacheStep τ V → Prop
  | .invalidate k => k = key
  | .invalidateSite site => CacheKey.isOf site key = true
  | .clear => True
  | _ => False

def FlightStage.hasBegun {τ V : Type} : FlightStage τ V → Bool
  | .registered => false
  | .queued => false
  | _ => true

namespace Cache

variable {τ V : Type}

def HasBegun (i : ℕ) (c : Cache τ V) : Prop := ∃ f, c.flights[i]? = some f ∧ f.stage.hasBegun = true

variable [Clock τ] {c d : Cache τ V} {s : CacheStep τ V} {key : String}

/-- A look at a key, or a request of it, is answered with a cached value. -/
def Serves (c : Cache τ V) (key : String) (v : V) : Prop :=
  (c.get key).1 = some v ∨ ∃ ttl, (c.request key ttl).answer? c.callers.length = some (.ok v)

theorem find?_of_get {v : V} (h : (c.get key).1 = some v) :
    ∃ e, c.entries.find? key = some e ∧ e.value = v := by
  obtain ⟨e, hlook, hvalue⟩ := Option.map_eq_some_iff.mp h
  exact ⟨e, (CacheTable.of_look hlook).1, hvalue⟩

theorem get_of_answered {v : V} {ttl : Option τ}
    (h : (c.request key ttl).answer? c.callers.length = some (.ok v)) : (c.get key).1 = some v := by
  have hcallers : (c.get key).2.callers = c.callers := rfl
  rcases request_cases c key ttl with ⟨w, hget, heq⟩ | ⟨i, -, -, heq⟩ | ⟨-, -, heq⟩
  all_goals rw [heq] at h
  · obtain rfl : w = v := by simpa [answer?, addCaller, hcallers] using h
    exact hget
  -- The caller joins a flight or submits its own, so it has no answer yet.
  · simp [answer?, join, addCaller, modifyFlight, hcallers] at h
  · simp [answer?, register, hcallers] at h

theorem Serves.found {v : V} (h : c.Serves key v) :
    ∃ e, c.entries.find? key = some e ∧ e.value = v := by
  rcases h with hget | ⟨ttl, hanswer⟩
  · exact find?_of_get hget
  · exact find?_of_get (get_of_answered hanswer)

theorem find?_dropped (hs : c.step? s = some d) (h : s.Drops key) : d.entries.find? key = none := by
  cases s with
  | invalidate k =>
    obtain rfl : k = key := h
    obtain rfl := Option.some.inj hs
    exact Entries.find?_remove_self k c.entries
  | invalidateSite site =>
    obtain rfl := Option.some.inj hs
    cases hfind : (c.invalidateSite site).2.entries.find? key with
    | none => rfl
    | some e =>
      obtain ⟨-, hkept⟩ := List.mem_filter.mp (Entries.mem_of_find? hfind)
      rw [show CacheKey.isOf site key = true from h] at hkept
      cases hkept
  | clear =>
    obtain rfl := Option.some.inj hs
    rfl
  | _ => exact h.elim

/-- Once a key has been dropped, a cached value served under it is the last one stored under it, and
was stored since, by a flight that had not been settled then. -/
theorem served_is_stored_since {limits : CacheLimits τ} {now : τ}
    {before after : List (CacheStep τ V)} {e : Cache τ V} {v : V}
    (hbefore : ({ limits, now } : Cache τ V).run? before = some c) (hdrops : s.Drops key)
    (hafter : c.run? (s :: after) = some e) (hserves : e.Serves key v) :
    ∃ m, Commit.latest? key (({ limits, now } : Cache τ V).commits (before ++ s :: after)) = some m ∧
      m ∈ c.commits (s :: after) ∧ m.entry.value = v ∧ e.entries.find? key = some m.entry ∧
      ∀ f, c.flights[m.flight]? = some f → f.stage.isLive = true := by
  obtain ⟨d, hs, hrest⟩ := Option.bind_eq_some_iff.mp hafter
  have hnodup : (Entries.names d.entries).Nodup :=
    nodup_step (nodup_run (c := { limits, now }) List.nodup_nil hbefore) hs
  obtain ⟨x, hfind, hvalue⟩ := hserves.found
  have hstored := find?_run hnodup hrest hfind
  rw [find?_dropped hs hdrops, Option.or_none] at hstored
  obtain ⟨m, hlatest, rfl⟩ := Option.map_eq_some_iff.mp hstored
  have hmem : m ∈ c.commits (s :: after) := by
    rw [commits_cons hs]
    exact List.mem_append_right _ (Commit.mem_of_latest? hlatest).1
  refine ⟨m, ?_, hmem, hvalue, hfind, fun f hf => ?_⟩
  · rw [commits_append hbefore, commits_cons hs, Commit.latest?_append, Commit.latest?_append,
      hlatest]
    rfl
  · exact ((sound_initial limits now).run hbefore).isLive_of_mem_commits hmem hf

/-- A value is stored, another computation begins once it has expired, and the cache is cleared. -/
theorem served_is_stored_since_cleared : ∃ c e : Cache Number String,
    ({ limits := ⟨2, .int 60, by decide⟩, now := .int 0 } : Cache Number String).run?
        [.request "k" none, .submit 0, .start 0, .finish 0 (.ok "old"), .stamp 0, .settle 0,
          .tick (.int 70), .request "k" none, .submit 1, .start 1] = some c ∧
      c.run? [.clear, .finish 1 (.ok "new"), .stamp 1, .settle 1] = some e ∧ e.Serves "k" "new" ∧
      ∃ m ∈ c.commits [.clear, .finish 1 (.ok "new"), .stamp 1, .settle 1], m.entry.value = "new" := by
  generalize hbegin : ([.request "k" none, .submit 0, .start 0, .finish 0 (.ok "old"), .stamp 0,
    .settle 0, .tick (.int 70), .request "k" none, .submit 1, .start 1] :
      List (CacheStep Number String)) = before
  generalize hend : ([.finish 1 (.ok "new"), .stamp 1, .settle 1] : List (CacheStep Number String)) =
    after
  have hrun : (({ limits := ⟨2, .int 60, by decide⟩, now := .int 0 } : Cache Number String).run?
      (before ++ .clear :: after)).map (fun e => (e.get "k").1) = some (some "new") := by
    rw [← hbegin, ← hend]
    decide +kernel
  obtain ⟨e, he, hget⟩ := Option.map_eq_some_iff.mp hrun
  rw [run?_append] at he
  obtain ⟨c, hbefore, hafter⟩ := Option.bind_eq_some_iff.mp he
  obtain ⟨m, -, hmem, hvalue, -⟩ :=
    served_is_stored_since (s := .clear) hbefore trivial hafter (.inl hget)
  exact ⟨c, e, hbefore, hafter, .inl hget, m, hmem, hvalue⟩

/-- What began before its key was dropped is stored and served all the same. -/
theorem serves_begun_before_drop :
    ¬ ∀ (limits : CacheLimits Number) (now : Number) (before after : List (CacheStep Number String))
      (s : CacheStep Number String) (key v : String) (c e : Cache Number String)
      (m : Commit Number String),
      ({ limits, now } : Cache Number String).run? before = some c → s.Drops key →
      c.run? (s :: after) = some e → e.Serves key v →
      Commit.latest? key (({ limits, now } : Cache Number String).commits (before ++ s :: after)) =
        some m → ¬c.HasBegun m.flight := by
  intro h
  generalize hstart : ({ limits := ⟨2, .int 60, by decide⟩, now := .int 0 } : Cache Number String) = b
  generalize hbegin : ([.request "k" none, .submit 0, .start 0] : List (CacheStep Number String)) =
    before
  generalize hend : ([.finish 0 (.ok "old"), .stamp 0, .settle 0] : List (CacheStep Number String)) =
    after
  have hrun : (b.run? (before ++ .invalidate "k" :: after)).map (fun e => (e.get "k").1) =
      some (some "old") := by
    rw [← hstart, ← hbegin, ← hend]
    decide +kernel
  have hlatest : (Commit.latest? "k" (b.commits (before ++ .invalidate "k" :: after))).map
      Commit.flight = some 0 := by
    rw [← hstart, ← hbegin, ← hend]
    decide +kernel
  have hbegun : (b.run? before).map (fun c => c.flights[0]?.map fun f => f.stage.hasBegun) =
      some (some true) := by
    rw [← hstart, ← hbegin]
    decide +kernel
  obtain ⟨e, he, hget⟩ := Option.map_eq_some_iff.mp hrun
  obtain ⟨m, hm, hflight⟩ := Option.map_eq_some_iff.mp hlatest
  rw [run?_append] at he
  obtain ⟨c, hbefore, hafter⟩ := Option.bind_eq_some_iff.mp he
  rw [hbefore] at hbegun
  subst hstart
  exact h _ _ before after (.invalidate "k") "k" "old" c e m hbefore rfl hafter (.inl hget) hm
    (hflight ▸ Option.map_eq_some_iff.mp (Option.some.inj hbegun))

end Cache

end CohortAnalytics
