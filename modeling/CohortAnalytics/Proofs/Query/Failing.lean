import CohortAnalytics.Proofs.Query.Answers

/-!
Stores some of whose calls fail. Calls are counted, and which of them fail is known beforehand. What
was computed from the calls before one that fails comes to nothing.
-/

namespace CohortAnalytics

/-- Answers from a table, except for the calls, counted from zero, that fail. -/
def Store.failing (table : EventTable) (failures : ℕ → Option Failure) : Store ℕ := fun q k =>
  (match failures k with
    | some f => .failure f
    | none => (Store.table q table).1, k + 1)

/-- None of the calls from one count up to another fails. -/
def Untroubled (failures : ℕ → Option Failure) (k k' : ℕ) : Prop :=
  ∀ j, k ≤ j → j < k' → failures j = none

variable {failures : ℕ → Option Failure} {j k l : ℕ}

theorem untroubled_self (failures : ℕ → Option Failure) (k : ℕ) : Untroubled failures k k :=
  fun _ hge hlt => absurd hlt hge.not_gt

theorem untroubled_trans (hjk : j ≤ k) (hkl : k ≤ l) :
    Untroubled failures j l ↔ Untroubled failures j k ∧ Untroubled failures k l := by
  constructor
  · intro h
    exact ⟨fun i hge hlt => h i hge (hlt.trans_le hkl), fun i hge hlt => h i (hjk.trans hge) hlt⟩
  · rintro ⟨hbefore, hafter⟩ i hge hlt
    rcases lt_or_ge i k with hik | hik
    · exact hbefore i hge hik
    · exact hafter i hik hlt

theorem untroubled_succ : Untroubled failures k (k + 1) ↔ failures k = none := by
  constructor
  · intro h
    exact h k le_rfl (Nat.lt_succ_self k)
  · intro h i hge hlt
    obtain rfl : i = k := by omega
    exact h

namespace Inquiry

variable {α : Type} {table : EventTable}

/-- Without a failing call a computation comes to the same as on the table, and otherwise it
fails. -/
theorem run_failing (i : Inquiry α) (table : EventTable) (failures : ℕ → Option Failure) (k : ℕ) :
    k ≤ (i.run (Store.failing table failures) k).state ∧
      (Untroubled failures k (i.run (Store.failing table failures) k).state ∧
          (i.run (Store.failing table failures) k).outcome = (i.run Store.table table).outcome ∨
        ¬Untroubled failures k (i.run (Store.failing table failures) k).state ∧
          ∃ e, (i.run (Store.failing table failures) k).outcome = .finished (.error e)) := by
  induction i generalizing k with
  | done r => exact ⟨le_rfl, .inl ⟨untroubled_self failures k, rfl⟩⟩
  | ask q next ih =>
    cases hcall : failures k with
    | some f =>
      have hstore : Store.failing table failures q k = (.failure f, k + 1) := by
        rw [Store.failing, hcall]
      rw [run, hstore]
      refine ⟨Nat.le_succ k, .inr ⟨?_, f, rfl⟩⟩
      change ¬Untroubled failures k (k + 1)
      rw [untroubled_succ, hcall]
      simp
    | none =>
      have hstore : Store.failing table failures q k = ((Store.table q table).1, k + 1) := by
        rw [Store.failing, hcall]
      have hfirst : Untroubled failures k (k + 1) := untroubled_succ.mpr hcall
      rw [run, run, hstore]
      cases hrun : q.run table with
      | error f =>
        rw [Store.table_error hrun]
        exact ⟨Nat.le_succ k, .inl ⟨hfirst, rfl⟩⟩
      | ok rows =>
        rw [Store.table_ok hrun]
        obtain ⟨hle, hrest⟩ := ih rows (k + 1)
        refine ⟨(Nat.le_succ k).trans hle, ?_⟩
        dsimp only
        rw [untroubled_trans (Nat.le_succ k) hle]
        rcases hrest with ⟨hclear, houtcome⟩ | ⟨htrouble, e, houtcome⟩
        · exact .inl ⟨⟨hfirst, hclear⟩, houtcome⟩
        · exact .inr ⟨fun h => htrouble h.2, e, houtcome⟩

theorem Gives.run_failing {i : Inquiry α} {a : α} (h : Gives table i a)
    (failures : ℕ → Option Failure) (k : ℕ) :
    ∃ outcome l, k ≤ l ∧ (i.run (Store.failing table failures) k).outcome = .finished outcome ∧
      (i.run (Store.failing table failures) k).state = l ∧
      (Untroubled failures k l ∧ outcome = .ok a ∨
        ¬Untroubled failures k l ∧ ∃ e, outcome = .error e) := by
  obtain ⟨hle, ⟨hclear, houtcome⟩ | ⟨htrouble, e, houtcome⟩⟩ := i.run_failing table failures k
  · exact ⟨.ok a, _, hle, houtcome.trans h, rfl, .inl ⟨hclear, rfl⟩⟩
  · exact ⟨.error e, _, hle, houtcome, rfl, .inr ⟨htrouble, e, rfl⟩⟩

end Inquiry

variable {σ α : Type}

/-- Counts the calls, and fails the one at a position; the others are answered by the store. -/
def Store.raising (store : Store σ) (position : ℕ) (f : Failure) : Store (ℕ × σ) := fun q s =>
  if s.1 = position then (.failure f, s.1 + 1, s.2)
  else ((store q s.2).1, s.1 + 1, (store q s.2).2)

/-- Keeps no caller waiting. -/
def Store.Replies (store : Store σ) : Prop := ∀ q s, (store q s).1 ≠ .stalled

namespace Inquiry

theorem run_raising_from (store : Store σ) (f : Failure) (i : Inquiry α) (s : σ) {k position : ℕ}
    (hle : k ≤ position) (hlt : position < k + (i.run store s).asked.length) :
    (i.run (store.raising position f) (k, s)).outcome = .finished (.error f) := by
  -- The calls that went before are counted in `k`, so that the rest of the computation is an instance.
  induction i generalizing k s with
  | done r => exact absurd hlt (Nat.not_lt.mpr hle)
  | ask q next ih =>
    rw [run]
    by_cases hhere : k = position
    · rw [show store.raising position f q (k, s) = (.failure f, k + 1, s) from if_pos hhere]
    · rw [show store.raising position f q (k, s) = ((store q s).1, k + 1, (store q s).2) from
        if_neg hhere]
      rw [run] at hlt
      cases hreply : store q s with
      | mk reply s' =>
        rw [hreply] at hlt
        cases reply with
        | rows rows =>
          refine ih rows s' (by omega) ?_
          simp only [List.length_cons] at hlt
          omega
        | failure e =>
          simp only [List.length_singleton] at hlt
          omega
        | stalled =>
          simp only [List.length_singleton] at hlt
          omega

theorem run_raising (store : Store σ) (f : Failure) (i : Inquiry α) (s : σ) {position : ℕ}
    (h : position < (i.run store s).asked.length) :
    (i.run (store.raising position f) (0, s)).outcome = .finished (.error f) :=
  run_raising_from store f i s (Nat.zero_le _) (by omega)

theorem run_replies {store : Store σ} (h : store.Replies) (i : Inquiry α) (s : σ) :
    ∃ r, (i.run store s).outcome = .finished r := by
  induction i generalizing s with
  | done r => exact ⟨r, rfl⟩
  | ask q next ih =>
    rw [run]
    cases hreply : store q s with
    | mk reply s' =>
      cases reply with
      | rows rows => exact ih rows s'
      | failure e => exact ⟨.error e, rfl⟩
      | stalled => exact absurd (congrArg Prod.fst hreply) (h q s)

end Inquiry

end CohortAnalytics
