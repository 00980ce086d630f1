import CohortAnalytics.Number.Basic
import CohortAnalytics.Proofs.Number.Double
import CohortAnalytics.Proofs.Number.Shortest
import Mathlib

/-!
Comparison of numbers is comparison of their exact values; the two infinities and what is not a
number stand outside the rationals.
-/

namespace CohortAnalytics

open Float.Model Float.Model.UnpackedFloat

theorem compare_congr {α β : Type} [LinearOrder α] [LinearOrder β] {a b : α} {c d : β}
    (hlt : a < b ↔ c < d) (hgt : b < a ↔ d < c) : compare a b = compare c d := by
  rcases lt_trichotomy c d with h | h | h
  · rw [compare_lt_iff_lt.mpr h, compare_lt_iff_lt]
    exact hlt.mpr h
  · have : a = b := by
      apply le_antisymm
      · rw [← not_lt, hgt, h]
        exact lt_irrefl d
      · rw [← not_lt, hlt, h]
        exact lt_irrefl d
    rw [compare_eq_iff_eq.mpr h, compare_eq_iff_eq.mpr this]
  · rw [compare_gt_iff_gt.mpr h, compare_gt_iff_gt]
    exact hgt.mpr h

namespace Binary

def exact (b : Binary) : ℚ := (b.signed : ℚ) / b.denominator

theorem exact_eq (b : Binary) :
    b.exact = if b.negative then -b.magnitudeValue else b.magnitudeValue := by
  rw [← numerator_div_denominator, exact, signed]
  split_ifs
  · push_cast
    rw [neg_div]
  · push_cast
    rfl

theorem abs_exact (b : Binary) : |b.exact| = b.magnitudeValue := by
  have hnonneg := b.magnitudeValue_nonneg
  rw [exact_eq]
  split_ifs
  · rw [abs_neg, abs_of_nonneg hnonneg]
  · exact abs_of_nonneg hnonneg

theorem exact_of_positive {b : Binary} (h : b.negative = false) : b.exact = b.magnitudeValue := by
  rw [exact_eq, h]
  rfl

theorem magnitudeValue_pos {b : Binary} (h : 0 < b.mantissa) : 0 < b.magnitudeValue := by
  have : (0 : ℚ) < b.mantissa := by exact_mod_cast h
  unfold magnitudeValue
  positivity

theorem magnitudeValue_lt {b d : Binary} (hb : b.IsDouble) (hd : d.IsDouble)
    (h : b.exponent < d.exponent) : b.magnitudeValue < d.magnitudeValue := by
  have hfull : 2 ^ 52 ≤ d.mantissa := by
    apply hd.full.resolve_right
    have := hb.exponent_ge
    omega
  have hlow : (b.mantissa : ℚ) < 2 ^ 53 := by exact_mod_cast hb.mantissa_lt
  have hhigh : (2 : ℚ) ^ 52 ≤ d.mantissa := by exact_mod_cast hfull
  unfold magnitudeValue
  calc (b.mantissa : ℚ) * 2 ^ b.exponent < 2 ^ 53 * 2 ^ b.exponent := by gcongr
    _ = 2 ^ 52 * 2 ^ (b.exponent + 1) := by
        rw [zpow_add₀ (by norm_num)]
        ring
    _ ≤ 2 ^ 52 * 2 ^ d.exponent := by
        gcongr
        · norm_num
        · omega
    _ ≤ d.mantissa * 2 ^ d.exponent := by gcongr

theorem compare_magnitudeValue {b d : Binary} (hb : b.IsDouble) (hd : d.IsDouble) :
    compare b.magnitudeValue d.magnitudeValue =
      (compare b.exponent d.exponent).then (compare b.mantissa d.mantissa) := by
  rcases lt_trichotomy b.exponent d.exponent with h | h | h
  · rw [compare_lt_iff_lt.mpr (magnitudeValue_lt hb hd h), compare_lt_iff_lt.mpr h]
    rfl
  · have hunit : (0 : ℚ) < 2 ^ d.exponent := by positivity
    rw [magnitudeValue, magnitudeValue, h, compare_eq_iff_eq.mpr rfl]
    change compare _ _ = compare _ _
    apply compare_congr
    · rw [mul_lt_mul_iff_of_pos_right hunit, Nat.cast_lt]
    · rw [mul_lt_mul_iff_of_pos_right hunit, Nat.cast_lt]
  · rw [compare_gt_iff_gt.mpr (magnitudeValue_lt hd hb h), compare_gt_iff_gt.mpr h]
    rfl

theorem exact_zero {b : Binary} (h : b.mantissa = 0) : b.exact = 0 := by
  rw [exact_eq, magnitudeValue, h]
  simp

theorem compare_neg (x y : ℚ) : compare (-x) (-y) = (compare x y).swap := by
  rw [← Std.OrientedCmp.eq_swap]
  exact compare_congr neg_lt_neg_iff neg_lt_neg_iff

theorem compare_unpacked {b d : Binary} (hb : b.IsDouble) (hd : d.IsDouble) :
    b.unpacked.compare d.unpacked = some (compare b.exact d.exact) := by
  have hpos {x : ℚ} (h : 0 < x) : compare x 0 = .gt ∧ compare 0 x = .lt ∧ compare (-x) 0 = .lt ∧
      compare 0 (-x) = .gt :=
    ⟨compare_gt_iff_gt.mpr h, compare_lt_iff_lt.mpr h, compare_lt_iff_lt.mpr (by linarith),
      compare_gt_iff_gt.mpr (by change -x < 0; linarith)⟩
  unfold unpacked
  by_cases hbm : 0 < b.mantissa <;> by_cases hdm : 0 < d.mantissa
  · rw [dif_pos hbm, dif_pos hdm, exact_eq, exact_eq, sign, sign]
    have hb' := magnitudeValue_pos hbm
    have hd' := magnitudeValue_pos hdm
    have hcompare := compare_magnitudeValue hb hd
    split_ifs
    · rw [compare_neg, hcompare]
      rfl
    · rw [compare_lt_iff_lt.mpr (by linarith)]
      rfl
    · rw [compare_gt_iff_gt.mpr (by linarith)]
      rfl
    · rw [hcompare]
      rfl
  · rw [dif_pos hbm, dif_neg hdm, exact_zero (b := d) (by omega), exact_eq, sign]
    obtain ⟨h1, -, h3, -⟩ := hpos (magnitudeValue_pos hbm)
    split_ifs
    · rw [h3]
      rfl
    · rw [h1]
      rfl
  · rw [dif_neg hbm, dif_pos hdm, exact_zero (b := b) (by omega), exact_eq, sign, sign]
    obtain ⟨-, h2, -, h4⟩ := hpos (magnitudeValue_pos hdm)
    split_ifs
    all_goals first
      | rw [h4]; rfl
      | rw [h2]; rfl
  · rw [dif_neg hbm, dif_neg hdm, exact_zero (b := b) (by omega), exact_zero (b := d) (by omega)]
    rfl

theorem compare_negative_infinity (b : Binary) :
    (infinity .negative).compare b.unpacked = some .lt ∧
      b.unpacked.compare (infinity .negative) = some .gt := by
  unfold unpacked
  split_ifs <;> exact ⟨rfl, rfl⟩

theorem compare_positive_infinity (b : Binary) :
    (infinity .positive).compare b.unpacked = some .gt ∧
      b.unpacked.compare (infinity .positive) = some .lt := by
  unfold unpacked
  split_ifs <;> exact ⟨rfl, rfl⟩

theorem compare_notANumber (b : Binary) :
    notANumber.compare b.unpacked = none ∧ b.unpacked.compare notANumber = none := by
  unfold unpacked
  split_ifs <;> exact ⟨rfl, rfl⟩

end Binary

theorem lt_iff_unpack (x y : Float) : x < y ↔ x.toModel.unpack.lt y.toModel.unpack = true :=
  decide_eq_true_iff

theorem lt_iff_exact {x y : Float} {b d : Binary} (hx : Binary.ofFloat? x = some b)
    (hy : Binary.ofFloat? y = some d) : x < y ↔ b.exact < d.exact := by
  have hb := Binary.isDouble_of_ofFloat? hx
  have hd := Binary.isDouble_of_ofFloat? hy
  rw [lt_iff_unpack, UnpackedFloat.lt, Binary.unpack_of_ofFloat? hx, Binary.unpack_of_ofFloat? hy,
    Binary.compare_unpacked hb hd, beq_iff_eq, Option.some_inj, compare_lt_iff_lt]

theorem beq_eq_unpack (x y : Float) : (x == y) = x.toModel.unpack.beq y.toModel.unpack := rfl

namespace Number

theorem compareFloat_of_unpack {x y : Float} {o : Ordering}
    (hxy : x.toModel.unpack.compare y.toModel.unpack = some o)
    (hyx : y.toModel.unpack.compare x.toModel.unpack = some o.swap) :
    compareFloat x y = some o := by
  simp only [compareFloat, lt_iff_unpack, beq_eq_unpack, UnpackedFloat.lt, UnpackedFloat.beq, hxy,
    hyx]
  cases o <;> decide

/-- Where a number stands among the rationals. What is not a number stands above them all. -/
def position : Number → WithBot (WithTop ℚ)
  | .int n => ((n : ℚ) : WithTop ℚ)
  | .float x =>
    match Binary.ofFloat? x with
    | some b => (b.exact : WithTop ℚ)
    | none => if x < 0 then ⊥ else ⊤

variable {b : Binary} {x : Float}

theorem position_float (hx : Binary.ofFloat? x = some b) :
    position (.float x) = (b.exact : WithTop ℚ) := by
  rw [position, hx]

theorem compareInt_finite (n : Int) (hx : Binary.ofFloat? x = some b) :
    compareInt n x = some (compare (n : ℚ) b.exact) := by
  have hpos : (0 : ℚ) < b.denominator := by exact_mod_cast b.denominator_pos
  simp only [compareInt, hx]
  congr 1
  apply compare_congr
  · rw [Binary.exact, lt_div_iff₀ hpos]
    norm_cast
  · rw [Binary.exact, div_lt_iff₀ hpos]
    norm_cast

theorem compareFloat_finite (y : Float) (hx : Binary.ofFloat? x = some b) :
    compareFloat y x = some (compare (position (.float y)) (b.exact : WithTop ℚ)) ∨
      compareFloat y x = none ∧ position (.float y) = ⊤ := by
  have hxu := Binary.unpack_of_ofFloat? hx
  cases hy : Binary.ofFloat? y with
  | some d =>
    left
    have hb := Binary.isDouble_of_ofFloat? hx
    have hd := Binary.isDouble_of_ofFloat? hy
    have hyu := Binary.unpack_of_ofFloat? hy
    rw [position_float hy, compareFloat_of_unpack (o := compare d.exact b.exact)]
    · congr 1
      apply compare_congr <;> norm_cast
    · rw [hxu, hyu]
      exact Binary.compare_unpacked hd hb
    · rw [hxu, hyu, Binary.compare_unpacked hb hd, ← Std.OrientedCmp.eq_swap]
  | none =>
    simp only [position, hy]
    rcases special_of_ofFloat?_none hy with ⟨hnan, rfl⟩ | ⟨-, hneg, hy'⟩ | ⟨-, hpos, hy'⟩
    · right
      have hyu : (0.0 / 0.0 : Float).toModel.unpack = .notANumber := rfl
      have hlt : ¬(0.0 / 0.0 : Float) < 0 := by
        rw [lt_iff_unpack, hyu]
        decide
      rw [if_neg hlt]
      refine ⟨?_, rfl⟩
      simp [compareFloat, lt_iff_unpack, beq_eq_unpack, UnpackedFloat.lt, UnpackedFloat.beq, hyu,
        hxu, Binary.compare_notANumber]
    · left
      have hyu : y.toModel.unpack = .infinity .negative := by
        rw [hy']
        rfl
      obtain ⟨hlow, hhigh⟩ := b.compare_negative_infinity
      rw [if_pos hneg, compareFloat_of_unpack (hyu ▸ hxu ▸ hlow) (hyu ▸ hxu ▸ hhigh)]
      rw [compare_lt_iff_lt.mpr (WithBot.bot_lt_coe _)]
    · left
      have hyu : y.toModel.unpack = .infinity .positive := by
        rw [hy']
        rfl
      obtain ⟨hlow, hhigh⟩ := b.compare_positive_infinity
      rw [if_neg hpos, compareFloat_of_unpack (hyu ▸ hxu ▸ hlow) (hyu ▸ hxu ▸ hhigh)]
      rw [compare_gt_iff_gt.mpr (WithBot.coe_lt_coe.mpr (WithTop.coe_lt_top _))]

theorem order?_finite (n : Number) (hx : Binary.ofFloat? x = some b) :
    order? n (.float x) = some (compare n.position (b.exact : WithTop ℚ)) ∨
      order? n (.float x) = none ∧ n.position = ⊤ := by
  cases n with
  | int n =>
    left
    rw [order?, compareInt_finite n hx, position]
    congr 1
    apply compare_congr <;> norm_cast
  | float y => exact compareFloat_finite y hx

theorem eqv_iff (n : Number) (hx : Binary.ofFloat? x = some b) :
    n.eqv (.float x) = true ↔ n.position = (b.exact : WithTop ℚ) := by
  rw [eqv, beq_iff_eq]
  rcases order?_finite n hx with h | ⟨h, htop⟩
  · rw [h, Option.some_inj, compare_eq_iff_eq]
  · rw [h, htop]
    simp

theorem lt_iff (n : Number) (hx : Binary.ofFloat? x = some b) :
    n.lt (.float x) = true ↔ n.position < (b.exact : WithTop ℚ) := by
  rw [lt, beq_iff_eq]
  rcases order?_finite n hx with h | ⟨h, htop⟩
  · rw [h, Option.some_inj, compare_lt_iff_lt]
  · rw [h, htop]
    simp

theorem le_iff (n : Number) (hx : Binary.ofFloat? x = some b) :
    n.le (.float x) = true ↔ n.position ≤ (b.exact : WithTop ℚ) := by
  have hlt := lt_iff n hx
  have heq := eqv_iff n hx
  rw [le, Bool.or_eq_true, ← lt, ← eqv, hlt, heq, le_iff_lt_or_eq]

theorem lt_int (m n : ℤ) : lt (.int m) (.int n) = decide (m < n) := by
  rw [Bool.eq_iff_iff, lt, order?, beq_iff_eq, Option.some_inj, compare_lt_iff_lt, decide_eq_true_iff]

theorem le_int (m n : ℤ) : le (.int m) (.int n) = decide (m ≤ n) := by
  rw [Bool.eq_iff_iff, le, order?, Bool.or_eq_true, beq_iff_eq, beq_iff_eq, Option.some_inj,
    Option.some_inj, compare_lt_iff_lt, compare_eq_iff_eq, decide_eq_true_iff, le_iff_lt_or_eq]

theorem int_lt_float (n : ℤ) (hx : Binary.ofFloat? x = some b) :
    lt (.int n) (.float x) = true ↔ n < b.exact := by
  rw [lt_iff _ hx, position]
  exact_mod_cast Iff.rfl

theorem int_le_float (n : ℤ) (hx : Binary.ofFloat? x = some b) :
    le (.int n) (.float x) = true ↔ n ≤ b.exact := by
  rw [le_iff _ hx, position]
  exact_mod_cast Iff.rfl

theorem order?_float_int (hx : Binary.ofFloat? x = some b) (n : ℤ) :
    order? (.float x) (.int n) = some (compare b.exact n) := by
  rw [order?, compareInt_finite n hx, Option.map_some, ← Std.OrientedCmp.eq_swap]

theorem float_lt_int (hx : Binary.ofFloat? x = some b) (n : ℤ) :
    lt (.float x) (.int n) = true ↔ b.exact < n := by
  rw [lt, order?_float_int hx, beq_iff_eq, Option.some_inj, compare_lt_iff_lt]

theorem float_le_int (hx : Binary.ofFloat? x = some b) (n : ℤ) :
    le (.float x) (.int n) = true ↔ b.exact ≤ n := by
  rw [le, order?_float_int hx, Bool.or_eq_true, beq_iff_eq, beq_iff_eq, Option.some_inj,
    Option.some_inj, compare_lt_iff_lt, compare_eq_iff_eq, le_iff_lt_or_eq]

end Number

end CohortAnalytics
