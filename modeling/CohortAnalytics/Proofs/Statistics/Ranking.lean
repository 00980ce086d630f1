import CohortAnalytics.Proofs.Number.Negation
import CohortAnalytics.Proofs.Number.Order
import CohortAnalytics.Proofs.Statistics.Bounds
import Mathlib.Data.List.MinMax
import Mathlib.Data.Prod.Lex
import Mathlib.Data.String.Basic

/-!
What is found first in a list is an item of the greatest rank. Comparisons rank by the confidence
that is shown, then by significance, by the magnitude of the statistic and by the smaller id; variants
by their rate, then by their users and by the smaller id.
-/

namespace CohortAnalytics

section Least

variable {α κ : Type} [LinearOrder κ] {before : α → α → Bool} {rank : α → κ} {xs ys : List α}

/-- Of two items of the list the one of the greater rank comes before the other. -/
def OrdersBy (before : α → α → Bool) (rank : α → κ) (xs : List α) : Prop :=
  ∀ x ∈ xs, ∀ y ∈ xs, before x y = true ↔ rank y < rank x

theorem least?_eq_argmax (h : OrdersBy before rank xs) : least? before xs = xs.argmax rank := by
  cases xs with
  | nil => rfl
  | cons x rest =>
    change some _ = rest.foldl _ (some x)
    induction rest generalizing x with
    | nil => rfl
    | cons y rest ih =>
      have hstep : (if before y x then y else x) = if rank x < rank y then y else x :=
        if_congr (h y (by simp) x (by simp)) rfl rfl
      have hnext : OrdersBy before rank ((if before y x then y else x) :: rest) := by
        intro a ha b hb
        apply h <;> split_ifs at ha hb <;> simp only [List.mem_cons] at ha hb ⊢ <;> tauto
      have hfound := ih _ hnext
      rw [List.foldl_cons, List.foldl_cons, hfound, hstep]
      congr 1
      exact apply_ite some _ _ _

theorem rank_le_of_least? (h : OrdersBy before rank xs) {best : α}
    (hbest : least? before xs = some best) {x : α} (hx : x ∈ xs) : rank x ≤ rank best := by
  rw [least?_eq_argmax h] at hbest
  exact List.le_of_mem_argmax hx hbest

theorem least?_eq_none : least? before xs = none ↔ xs = [] := by
  cases xs <;> simp [least?]

/-- Where ranks are distinct the order of the items does not matter. -/
theorem least?_perm (h : OrdersBy before rank xs) (hinj : Set.InjOn rank {x | x ∈ xs})
    (hperm : xs.Perm ys) : least? before xs = least? before ys := by
  have h' : OrdersBy before rank ys := fun x hx y hy =>
    h x (hperm.mem_iff.mpr hx) y (hperm.mem_iff.mpr hy)
  cases hx : least? before xs with
  | none =>
    rw [least?_eq_none] at hx
    subst hx
    rw [← hperm.nil_eq]
    rfl
  | some a =>
    cases hy : least? before ys with
    | none =>
      rw [least?_eq_none] at hy
      subst hy
      rw [hperm.eq_nil] at hx
      cases hx
    | some b =>
      have ha := mem_of_least? hx
      have hb := hperm.mem_iff.mpr (mem_of_least? hy)
      have hrank : rank a = rank b :=
        le_antisymm (rank_le_of_least? h' hy (hperm.mem_iff.mp ha)) (rank_le_of_least? h hx hb)
      rw [hinj ha hb hrank]

end Least

section Rank

/-- Of two pairs the greater is found by the first parts where these differ, and else by the second. -/
theorem ite_iff_toLex_lt {κ μ : Type} [LinearOrder κ] [LT μ] {x y : κ} {u v : μ} {c : Prop}
    [Decidable c] {first rest : Bool} (hc : c ↔ x ≠ y) (hfirst : x ≠ y → (first = true ↔ y < x))
    (hrest : rest = true ↔ v < u) :
    (if c then first else rest) = true ↔ toLex (y, v) < toLex (x, u) := by
  rw [Prod.Lex.toLex_lt_toLex]
  dsimp only
  by_cases heq : x = y
  · rw [if_neg (mt hc.mp (not_not.mpr heq)), hrest, heq]
    simp only [lt_irrefl, false_or, true_and]
  · rw [if_pos (hc.mpr heq), hfirst heq]
    exact ⟨.inl, fun h => h.resolve_right fun h' => heq h'.1.symm⟩

theorem bne_iff_position {x y : Float} (hx : x.isNaN = false) (hy : y.isNaN = false) :
    (x != y) = true ↔ Number.position (.float x) ≠ Number.position (.float y) := by
  rw [bne, Bool.not_eq_true', ← Bool.not_eq_true, Double.beq_iff_position hx hy]

namespace VariantStats

def rank (v : VariantStats) : WithBot (WithTop ℚ) ×ₗ ℕ ×ₗ Stringᵒᵈ :=
  toLex (Number.position (.float v.rate), toLex (v.users, OrderDual.toDual v.id))

theorem isNaN_rate (v : VariantStats) : v.rate.isNaN = false := v.rate_within.isNaN

theorem before_iff (a b : VariantStats) : a.before b = true ↔ b.rank < a.rank :=
  ite_iff_toLex_lt (bne_iff_position a.isNaN_rate b.isNaN_rate)
    (fun _ => decide_eq_true_iff.trans (Double.lt_iff_position b.isNaN_rate a.isNaN_rate))
    (ite_iff_toLex_lt Iff.rfl (fun _ => decide_eq_true_iff) decide_eq_true_iff)

theorem id_of_rank {a b : VariantStats} (h : a.rank = b.rank) : a.id = b.id := by
  simp only [rank, toLex_inj, Prod.mk.injEq, OrderDual.toDual_inj] at h
  exact h.2.2

theorem ordersBy_before (variants : List VariantStats) : OrdersBy before rank variants :=
  fun a _ b _ => before_iff a b

end VariantStats

namespace Comparison

/-- The numbers that are shown are numbers. -/
structure IsProper (c : Comparison) : Prop where
  confidence : c.confidence.isNaN = false
  z : c.z.isNaN = false

def rank (c : Comparison) : WithBot (WithTop ℚ) ×ₗ Bool ×ₗ WithBot (WithTop ℚ) ×ₗ Stringᵒᵈ :=
  toLex (Number.position (.float c.confidence), toLex (c.isSignificant,
    toLex (Number.position (.float c.z.abs), OrderDual.toDual c.variant)))

theorem before_iff {a b : Comparison} (ha : a.IsProper) (hb : b.IsProper) :
    a.before b = true ↔ b.rank < a.rank := by
  have hza : a.z.abs.isNaN = false := (Double.isNaN_abs _).trans ha.z
  have hzb : b.z.abs.isNaN = false := (Double.isNaN_abs _).trans hb.z
  have hsignificant : ∀ p q : Bool, p ≠ q → (p = true ↔ q < p) := by
    decide
  exact ite_iff_toLex_lt (bne_iff_position ha.confidence hb.confidence)
    (fun _ => decide_eq_true_iff.trans (Double.lt_iff_position hb.confidence ha.confidence))
    (ite_iff_toLex_lt bne_iff_ne (hsignificant _ _)
      (ite_iff_toLex_lt (bne_iff_position hza hzb)
        (fun _ => decide_eq_true_iff.trans (Double.lt_iff_position hzb hza)) decide_eq_true_iff))

theorem variant_of_rank {a b : Comparison} (h : a.rank = b.rank) : a.variant = b.variant := by
  simp only [rank, toLex_inj, Prod.mk.injEq, OrderDual.toDual_inj] at h
  exact h.2.2.2

theorem confidence_of_rank {a b : Comparison} (h : a.rank ≤ b.rank) :
    Number.position (.float a.confidence) ≤ Number.position (.float b.confidence) :=
  Prod.Lex.monotone_fst _ _ h

/-- Of comparisons with the same confidence a significant one does not rank below another. -/
theorem significant_of_rank {a b : Comparison} (h : a.rank ≤ b.rank)
    (hconfidence : Number.position (.float b.confidence) ≤ Number.position (.float a.confidence))
    (ha : a.isSignificant = true) : b.isSignificant = true := by
  rcases Prod.Lex.toLex_le_toLex.mp h with hlt | ⟨-, hrest⟩
  · exact absurd hconfidence (not_le_of_gt hlt)
  · exact le_antisymm le_top (ha ▸ Prod.Lex.monotone_fst _ _ hrest)

theorem ordersBy_before {comparisons : List Comparison} (h : ∀ c ∈ comparisons, c.IsProper) :
    OrdersBy before rank comparisons :=
  fun a ha b hb => before_iff (h a ha) (h b hb)

end Comparison

end Rank

end CohortAnalytics
