import CohortAnalytics.Proofs.Cache.Eviction
import CohortAnalytics.Proofs.Cache.History
import CohortAnalytics.Proofs.Cache.Invalidation

/-!
How long a stored value stands: until its key is stored under anew, dropped or evicted. What is found
under a key stands under it, and a step takes nothing else away that has not expired.
-/

namespace CohortAnalytics

namespace Cache

variable {τ V : Type} [Clock τ] {b c d : Cache τ V} {s : CacheStep τ V} {steps : List (CacheStep τ V)}
variable {m : Commit τ V} {key : String} {e : CacheEntry τ V}

/-- A value is stored, and the key goes with the older half of the entries. -/
def Evicts (key : String) (c : Cache τ V) (s : CacheStep τ V) : Prop :=
  (c.committed? s).isSome = true ∧ c.limits.capacity < (c.written s).length ∧
    key ∈ CacheTable.olderHalf (c.written s)

/-- A step that does not replace, drop or evict what is under the key. -/
def Leaves (key : String) (c : Cache τ V) (s : CacheStep τ V) : Prop :=
  (∀ m, c.committed? s = some m → m.key ≠ key) ∧ ¬s.Drops key ∧ ¬c.Evicts key s

/-- At the end of a run from `c` a value stands under the key: it was stored and not evicted at once,
and the steps since leave the key alone. -/
inductive Stands (c : Cache τ V) (key : String) : List (CacheStep τ V) → Commit τ V → Prop
  | stored {before : List (CacheStep τ V)} {b : Cache τ V} {s : CacheStep τ V} {m : Commit τ V}
      (hb : c.run? before = some b) (hm : b.committed? s = some m) (hkey : m.key = key)
      (hstays : ¬b.Evicts key s) : c.Stands key (before ++ [s]) m
  | left {before : List (CacheStep τ V)} {b : Cache τ V} {s : CacheStep τ V} {m : Commit τ V}
      (h : c.Stands key before m) (hb : c.run? before = some b) (hleaves : b.Leaves key s) :
      c.Stands key (before ++ [s]) m

/-- What stands under a key is what was stored last under it. -/
theorem Stands.latest (h : c.Stands key steps m) : Commit.latest? key (c.commits steps) = some m := by
  induction h with
  | stored hb hm hkey hstays =>
    rw [commits_concat hb, Commit.latest?_append, hm]
    simp [Commit.latest?, hkey]
  | @left before b s m h hb hleaves ih =>
    rw [commits_concat hb, Commit.latest?_append, ih]
    cases hm : b.committed? s with
    | none => rfl
    | some m' => simp [Commit.latest?, hleaves.1 m' hm]

end Cache

end CohortAnalytics
