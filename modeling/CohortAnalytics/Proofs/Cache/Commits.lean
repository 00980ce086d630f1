import CohortAnalytics.Proofs.Cache.Call
import CohortAnalytics.Proofs.Cache.Contents
import CohortAnalytics.Proofs.Cache.SingleFlight

/-!
What a run stores, in order. What is kept under a key is what was stored last under it, and a flight
stores once.
-/

namespace CohortAnalytics

/-- A value as it is stored, with its flight and the number of callers that flight has then. -/
structure Commit (τ V : Type) where
  flight : ℕ
  waiting : ℕ
  key : String
  entry : CacheEntry τ V

namespace Commit

variable {τ V : Type}

def latest? (key : String) (past : List (Commit τ V)) : Option (Commit τ V) :=
  (past.filter fun m => m.key = key).getLast?

theorem latest?_append (key : String) (past more : List (Commit τ V)) :
    latest? key (past ++ more) = (latest? key more).or (latest? key past) := by
  rw [latest?, List.filter_append, List.getLast?_append]
  rfl

theorem mem_of_latest? {key : String} {past : List (Commit τ V)} {m : Commit τ V}
    (h : latest? key past = some m) : m ∈ past ∧ m.key = key := by
  have hm := List.mem_filter.mp (List.mem_of_getLast? h)
  exact ⟨hm.1, by simpa using hm.2⟩

end Commit

namespace Cache

variable {τ V : Type} [Clock τ] {c d : Cache τ V} {s : CacheStep τ V} {m : Commit τ V} {key : String}

def committed? (c : Cache τ V) : CacheStep τ V → Option (Commit τ V)
  | .settle i =>
    match c.flights[i]? with
    | some f =>
      match f.stage with
      | .stamped v now => some ⟨i, c.attached i, f.key, ⟨v, now, Clock.later now f.ttl⟩⟩
      | _ => none
    | none => none
  | _ => none

/-- What steps store, as far as they can be taken. -/
def commits (c : Cache τ V) : List (CacheStep τ V) → List (Commit τ V)
  | [] => []
  | s :: rest => (c.committed? s).toList ++ (c.step? s).elim [] fun d => d.commits rest

theorem committed?_cases (h : c.committed? s = some m) :
    ∃ i f v now, s = .settle i ∧ c.flights[i]? = some f ∧ f.stage = .stamped v now ∧
      m = ⟨i, c.attached i, f.key, ⟨v, now, Clock.later now f.ttl⟩⟩ := by
  unfold committed? at h
  split at h
  case h_1 i =>
    split at h
    case h_1 f hf =>
      split at h
      case h_1 v now hstage => exact ⟨i, f, v, now, rfl, hf, hstage, (Option.some.inj h).symm⟩
      case h_2 => cases h
    case h_2 => cases h
  case h_2 => cases h

theorem commits_cons (h : c.step? s = some d) (rest : List (CacheStep τ V)) :
    c.commits (s :: rest) = (c.committed? s).toList ++ d.commits rest := by
  rw [commits, h, Option.elim_some]

theorem run?_cons (h : c.step? s = some d) (rest : List (CacheStep τ V)) :
    c.run? (s :: rest) = d.run? rest := by
  rw [run?, List.foldlM_cons, h]
  rfl

theorem run?_append (c : Cache τ V) (steps more : List (CacheStep τ V)) :
    c.run? (steps ++ more) = (c.run? steps).bind fun d => d.run? more := List.foldlM_append

theorem commits_append {steps : List (CacheStep τ V)} (h : c.run? steps = some d)
    (more : List (CacheStep τ V)) : c.commits (steps ++ more) = c.commits steps ++ d.commits more := by
  induction steps generalizing c with
  | nil =>
    obtain rfl := Option.some.inj h
    rfl
  | cons s rest ih =>
    obtain ⟨next, hs, hrest⟩ := Option.bind_eq_some_iff.mp h
    rw [List.cons_append, commits_cons hs, commits_cons hs, ih hrest, List.append_assoc]

/-- A value is stored in a state of the run, by a flight that is about to settle. -/
theorem exists_of_mem_commits {steps : List (CacheStep τ V)} (h : m ∈ c.commits steps) :
    ∃ taken d f v now, c.run? taken = some d ∧ d.flights[m.flight]? = some f ∧
      f.stage = .stamped v now ∧ f.key = m.key ∧ m.waiting = d.attached m.flight := by
  induction steps generalizing c with
  | nil => cases h
  | cons s rest ih =>
    rw [commits, List.mem_append] at h
    rcases h with hnow | hlater
    · obtain ⟨i, f, v, now, rfl, hf, hstage, rfl⟩ := committed?_cases (Option.mem_toList.mp hnow)
      exact ⟨[], c, f, v, now, rfl, hf, hstage, rfl, rfl⟩
    · cases hs : c.step? s with
      | none =>
        rw [hs] at hlater
        cases hlater
      | some next =>
        rw [hs] at hlater
        obtain ⟨taken, d, f, v, now, hrun, hflight⟩ := ih hlater
        exact ⟨s :: taken, d, f, v, now, (run?_cons hs taken).trans hrun, hflight⟩

/-- A flight that is yet to store has not been settled. -/
theorem Sound.isLive_of_mem_commits (h : c.Sound) {steps : List (CacheStep τ V)}
    (hm : m ∈ c.commits steps) {f : Flight τ V} (hf : c.flights[m.flight]? = some f) :
    f.stage.isLive = true := by
  obtain ⟨taken, d, f', v, now, hrun, hf', hstage, -⟩ := exists_of_mem_commits hm
  obtain ⟨g, hg, hlater⟩ := later_run h hf hrun
  obtain rfl := Option.some.inj (hf'.symm.trans hg)
  have hahead : 2 ≤ f.stage.remaining := by simpa [hstage, FlightStage.remaining] using hlater.nearer
  revert hahead
  cases f.stage <;> simp [FlightStage.remaining, FlightStage.isLive]

/-- The entries with what a step stores, before any of them goes. -/
def written (c : Cache τ V) (s : CacheStep τ V) : CacheTable τ V :=
  (c.committed? s).elim c.entries fun m => c.entries.put m.key m.entry

/-- What a step that stores nothing leaves of the entries. -/
def entriesLeft (c : Cache τ V) : CacheStep τ V → CacheTable τ V
  | .request key _ => (c.get key).2.entries
  | .get key => (c.get key).2.entries
  | .invalidate key => (c.invalidate key).2.entries
  | .invalidateSite site => (c.invalidateSite site).2.entries
  | .cleanup now => (c.cleanup now).2.entries
  | .clear => c.clear.entries
  | _ => c.entries

theorem entries_request (c : Cache τ V) (key : String) (ttl : Option τ) :
    (c.request key ttl).entries = (c.get key).2.entries := by
  rcases request_cases c key ttl with ⟨v, -, heq⟩ | ⟨i, -, -, heq⟩ | ⟨-, -, heq⟩
  all_goals
    rw [heq]
    rfl

/-- A step stores a value, which may evict others, or it only looks up, drops and leaves entries. -/
theorem entries_step (hs : c.step? s = some d) :
    d.entries = (c.committed? s).elim (c.entriesLeft s) fun m =>
      (c.entries.store c.limits.capacity m.key m.entry).1 := by
  cases s with
  | request key ttl =>
    obtain rfl := Option.some.inj hs
    exact entries_request c key ttl
  | submit k =>
    obtain ⟨i, -, ⟨-, rfl⟩ | ⟨-, rfl⟩⟩ := submit?_cases hs
    all_goals rfl
  | start i =>
    obtain ⟨f, -, -, rfl⟩ := start?_cases hs
    rfl
  | finish i r =>
    obtain ⟨f, -, -, ⟨v, -, rfl⟩ | ⟨e, -, rfl⟩⟩ := finish?_cases hs
    all_goals rfl
  | stamp i =>
    obtain ⟨f, v, -, -, rfl⟩ := stamp?_cases hs
    rfl
  | settle i =>
    obtain ⟨f, hf, ⟨v, now, hstage, rfl⟩ | ⟨e, hstage, rfl⟩⟩ := settle?_cases hs
    all_goals
      simp only [committed?, hf, hstage, dropFlight_eq]
      rfl
  | publish i =>
    obtain ⟨f, r, -, -, rfl⟩ := publish?_cases hs
    rfl
  | collect k =>
    obtain ⟨i, f, r, -, -, ⟨-, ⟨-, rfl⟩ | ⟨-, rfl⟩⟩ | ⟨-, rfl⟩⟩ := collect?_cases hs
    all_goals rfl
  | giveUp k =>
    obtain ⟨i, f, -, -, -, rfl⟩ := giveUp?_cases hs
    rfl
  | detach k =>
    obtain ⟨i, f, -, -, ⟨-, -, rfl⟩ | ⟨-, rfl⟩⟩ := detach?_cases hs
    · rw [dropFlight_eq]
      rfl
    · rfl
  | cancelToken k =>
    obtain ⟨i, f, -, -, rfl⟩ := cancelToken?_cases hs
    rfl
  | _ =>
    obtain rfl := Option.some.inj hs
    rfl

theorem entriesLeft_sublist (c : Cache τ V) (s : CacheStep τ V) :
    (c.entriesLeft s).Sublist c.entries := by
  cases s with
  | request key _ => exact CacheTable.look_sublist c.now key c.entries
  | get key => exact CacheTable.look_sublist c.now key c.entries
  | invalidate | invalidateSite | cleanup => exact List.filter_sublist
  | clear => exact List.nil_sublist _
  | _ => exact .refl _

/-- Beyond what a step stores nothing comes in. -/
theorem entries_sublist (hs : c.step? s = some d) : d.entries.Sublist (c.written s) := by
  rw [entries_step hs, written]
  cases c.committed? s with
  | none => exact entriesLeft_sublist c s
  | some m => exact CacheTable.store_sublist _ _ _ _

theorem nodup_written (h : (Entries.names c.entries).Nodup) (s : CacheStep τ V) :
    (Entries.names (c.written s)).Nodup := by
  unfold written
  cases c.committed? s with
  | none => exact h
  | some m => exact Entries.nodup_names_put h m.key m.entry

theorem nodup_step (h : (Entries.names c.entries).Nodup) (hs : c.step? s = some d) :
    (Entries.names d.entries).Nodup :=
  Entries.nodup_names_sublist (nodup_written h s) (entries_sublist hs)

theorem nodup_run (h : (Entries.names c.entries).Nodup) {steps : List (CacheStep τ V)}
    (hs : c.run? steps = some d) : (Entries.names d.entries).Nodup :=
  run_induction (P := fun _ c => (Entries.names c.entries).Nodup) h
    (fun _ _ _ _ _ hstep ih => nodup_step ih hstep) hs

theorem find?_written (c : Cache τ V) (s : CacheStep τ V) (key : String) :
    (c.written s).find? key =
      ((Commit.latest? key (c.committed? s).toList).map Commit.entry).or (c.entries.find? key) := by
  unfold written
  cases c.committed? s with
  | none => rfl
  | some m =>
    rw [Option.elim_some]
    by_cases hkey : m.key = key
    · subst hkey
      rw [Entries.find?_put_self]
      simp [Commit.latest?]
    · rw [Entries.find?_put_of_ne (Ne.symm hkey)]
      simp [Commit.latest?, hkey]

/-- What is found under a key at the end of a run was stored last under it, or was there before. -/
theorem find?_run (h : (Entries.names c.entries).Nodup) {steps : List (CacheStep τ V)}
    (hs : c.run? steps = some d) {e : CacheEntry τ V} (hfind : d.entries.find? key = some e) :
    ((Commit.latest? key (c.commits steps)).map Commit.entry).or (c.entries.find? key) = some e := by
  induction steps generalizing c with
  | nil =>
    obtain rfl := Option.some.inj hs
    exact hfind
  | cons s rest ih =>
    obtain ⟨next, hstep, hrest⟩ := Option.bind_eq_some_iff.mp hs
    have hnext := ih (nodup_step h hstep) hrest
    rw [commits_cons hstep, Commit.latest?_append]
    cases hlatest : Commit.latest? key (next.commits rest) with
    | some m =>
      rw [hlatest] at hnext
      exact hnext
    | none =>
      rw [hlatest] at hnext
      have hfound := Entries.find?_of_sublist (nodup_written h s) (entries_sublist hstep) hnext
      rw [find?_written] at hfound
      exact hfound

end Cache

end CohortAnalytics
