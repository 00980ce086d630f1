import Mathlib

/-!
Computations that may fail, taken apart by their success, and runs of steps that may not be taken.
-/

namespace CohortAnalytics

variable {ε α β : Type}

theorem bind_ok {m : Except ε α} {f : α → Except ε β} {b : β} (h : m >>= f = .ok b) :
    ∃ a, m = .ok a ∧ f a = .ok b := by
  cases m with
  | error _ => cases h
  | ok a => exact ⟨a, rfl, h⟩

theorem ok_bind {m : Except ε α} {a : α} (h : m = .ok a) (f : α → Except ε β) : m >>= f = f a := by
  rw [h]
  rfl

theorem ok_of_mem_toOption {m : Except ε α} {a : α} (h : a ∈ m.toOption) : m = .ok a := by
  cases m with
  | error _ => cases h
  | ok b => rw [Option.some.inj h]

theorem guard_ok {p : Prop} [Decidable p] {failure : ε} {f : β → Except ε α} {m : Except ε α} {a : α}
    (h : (if p then .error failure >>= f else m) = .ok a) : ¬p ∧ m = .ok a := by
  by_cases hp : p
  · rw [if_pos hp] at h
    cases h
  · rw [if_neg hp] at h
    exact ⟨hp, h⟩

theorem mapError_ok {ε' : Type} {f : ε → ε'} {m : Except ε α} {a : α}
    (h : m.mapError f = .ok a) : m = .ok a := by
  cases m with
  | error _ => cases h
  | ok b => rw [← Except.ok.inj h]

theorem mapError_error {ε' : Type} {f : ε → ε'} {m : Except ε α} {e : ε'}
    (h : m.mapError f = .error e) : ∃ cause, m = .error cause ∧ f cause = e := by
  cases m with
  | error cause => exact ⟨cause, rfl, Except.error.inj h⟩
  | ok _ => cases h

theorem mapM_ok {f : α → Except ε β} {xs : List α} {ys : List β} (h : xs.mapM f = .ok ys) :
    List.Forall₂ (fun x y => f x = .ok y) xs ys := by
  induction xs generalizing ys with
  | nil =>
    obtain rfl : [] = ys := Except.ok.inj h
    exact .nil
  | cons x xs ih =>
    rw [List.mapM_cons] at h
    obtain ⟨y, hy, h⟩ := bind_ok h
    obtain ⟨zs, hzs, h⟩ := bind_ok h
    obtain rfl : y :: zs = ys := Except.ok.inj h
    exact .cons hy (ih hzs)

theorem exists_of_forall₂ {p : α → β → Prop} {xs : List α} {ys : List β}
    (h : List.Forall₂ p xs ys) {y : β} (hy : y ∈ ys) : ∃ x ∈ xs, p x y := by
  induction h with
  | nil => exact absurd hy List.not_mem_nil
  | cons hp _ ih =>
    rcases List.mem_cons.mp hy with rfl | hy
    · exact ⟨_, by simp, hp⟩
    · obtain ⟨x, hx, hp⟩ := ih hy
      exact ⟨x, List.mem_cons_of_mem _ hx, hp⟩

theorem map_eq_of_forall₂ {γ : Type} {f : α → γ} {g : β → γ} {xs : List α} {ys : List β}
    (h : List.Forall₂ (fun x y => f x = g y) xs ys) : xs.map f = ys.map g := by
  induction h with
  | nil => rfl
  | cons hfirst _ ih => rw [List.map_cons, List.map_cons, hfirst, ih]

theorem mapM_ok_mem {f : α → Except ε β} {xs : List α} {ys : List β} (h : xs.mapM f = .ok ys) {y : β}
    (hy : y ∈ ys) : ∃ x ∈ xs, f x = .ok y := exists_of_forall₂ (mapM_ok h) hy

theorem mapM_ok_all {f : α → Except ε β} {xs : List α} {ys : List β} (h : xs.mapM f = .ok ys) {x : α}
    (hx : x ∈ xs) : ∃ y, f x = .ok y := by
  obtain ⟨y, -, hy⟩ := exists_of_forall₂ (mapM_ok h).flip hx
  exact ⟨y, hy⟩

theorem mapM_succeeds {f : α → Except ε β} {p : α → β → Prop} {xs : List α}
    (h : ∀ x ∈ xs, ∃ y, f x = .ok y ∧ p x y) : ∃ ys, xs.mapM f = .ok ys ∧ List.Forall₂ p xs ys := by
  induction xs with
  | nil => exact ⟨[], rfl, .nil⟩
  | cons x xs ih =>
    obtain ⟨y, hy, hp⟩ := h x (by simp)
    obtain ⟨ys, hys, hps⟩ := ih fun z hz => h z (List.mem_cons_of_mem _ hz)
    refine ⟨y :: ys, ?_, .cons hp hps⟩
    rw [List.mapM_cons, hy, hys]
    rfl

theorem mapM_error {f : α → Except ε β} {xs : List α} {e : ε} (h : xs.mapM f = .error e) :
    ∃ x ∈ xs, f x = .error e := by
  induction xs with
  | nil => cases h
  | cons x xs ih =>
    rw [List.mapM_cons] at h
    cases hx : f x with
    | error e' =>
      rw [hx] at h
      obtain rfl := Except.error.inj h
      exact ⟨x, by simp, hx⟩
    | ok y =>
      cases hxs : xs.mapM f with
      | error e' =>
        rw [hx, hxs] at h
        obtain rfl := Except.error.inj h
        obtain ⟨z, hz, he⟩ := ih hxs
        exact ⟨z, List.mem_cons_of_mem _ hz, he⟩
      | ok ys =>
        rw [hx, hxs] at h
        cases h

theorem bind_error_iff {m : Except ε α} {f : α → Except ε β} {e : ε} :
    m >>= f = .error e ↔ m = .error e ∨ ∃ a, m = .ok a ∧ f a = .error e := by
  cases m with
  | error cause =>
    constructor
    · exact fun h => .inl (congrArg Except.error (Except.error.inj h))
    · rintro (h | ⟨a, ha, -⟩)
      · exact congrArg Except.error (Except.error.inj h)
      · cases ha
  | ok a =>
    constructor
    · exact fun h => .inr ⟨a, rfl, h⟩
    · rintro (h | ⟨b, hb, h⟩)
      · cases h
      · obtain rfl := Except.ok.inj hb
        exact h

theorem map_error_iff {m : Except ε α} {f : α → β} {e : ε} : f <$> m = .error e ↔ m = .error e := by
  cases m <;> simp [Functor.map, Except.map]

theorem map_ok {m : Except ε α} {f : α → β} {b : β} (h : f <$> m = .ok b) :
    ∃ a, m = .ok a ∧ f a = b := by
  cases m with
  | error _ => cases h
  | ok a => exact ⟨a, rfl, Except.ok.inj h⟩

theorem mapM_map_ok {γ : Type} {f : α → β} {g : β → Except ε γ} {h : α → γ} {xs : List α}
    (hok : ∀ x ∈ xs, g (f x) = .ok (h x)) : (xs.map f).mapM g = .ok (xs.map h) := by
  induction xs with
  | nil => rfl
  | cons x xs ih =>
    rw [List.map_cons, List.mapM_cons, hok x (by simp), ih fun y hy => hok y (List.mem_cons_of_mem _ hy)]
    rfl

/-- Computations of a run that do not depend on what has come of the others are made first. -/
theorem foldlM_eq_map_mapM {γ : Type} (f : α → Except ε γ) (step : β → α × γ → β) (b : β)
    (xs : List α) : xs.foldlM (fun b x => do return step b (x, ← f x)) b =
      (fun ys => (xs.zip ys).foldl step b) <$> xs.mapM f := by
  induction xs generalizing b with
  | nil => rfl
  | cons x xs ih =>
    rw [List.foldlM_cons, List.mapM_cons]
    cases f x with
    | error _ => rfl
    | ok y =>
      refine (ih (step b (x, y))).trans ?_
      cases xs.mapM f <;> rfl

/-- What holds at first, and is kept by every step of a run, holds at its end. -/
theorem foldlM_induction {σ : Type} {step : σ → α → Option σ} {P : List α → σ → Prop} {s s' : σ}
    {xs : List α} (hnil : P [] s)
    (hconcat : ∀ taken b x d, taken.foldlM step s = some b → step b x = some d → P taken b →
      P (taken ++ [x]) d)
    (h : xs.foldlM step s = some s') : P xs s' := by
  induction xs using List.reverseRecOn generalizing s' with
  | nil =>
    obtain rfl := Option.some.inj h
    exact hnil
  | append_singleton taken x ih =>
    rw [List.foldlM_append] at h
    obtain ⟨b, hb, hx⟩ := Option.bind_eq_some_iff.mp h
    rw [List.foldlM_cons] at hx
    obtain ⟨d, hd, hnil⟩ := Option.bind_eq_some_iff.mp hx
    obtain rfl := Option.some.inj hnil
    exact hconcat taken b x d hb hd (ih hb)

end CohortAnalytics
