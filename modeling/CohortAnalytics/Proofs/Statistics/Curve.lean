import CohortAnalytics.Proofs.Number.Proper
import CohortAnalytics.Statistics.Normal

/-!
What the results rely on in a normal curve: at and above the middle its shares are between a half
and one, and so are its quantiles not below the middle and within 64 spreads of it.
-/

namespace CohortAnalytics

structure NormalCurve.IsLawful (curve : NormalCurve) : Prop where
  cdf_abs (x : Float) : (curve.cdf x.abs).isNaN = true ∨ Within (1 / 2) 1 (curve.cdf x.abs)
  quantile_upper {p : Float} {b : Binary} (hp : Binary.ofFloat? p = some b)
    (hge : 1 / 2 ≤ b.exact) (hlt : b.exact < 1) : Within 0 64 (curve.quantile p)

/-- At the magnitude of a number the share of a normal curve is at least a half. -/
def NormalCurve.GivesShares (curve : NormalCurve) : Prop :=
  ∀ x : Float, x.isNaN = false → Within (1 / 2) 1 (curve.cdf x.abs)

/-- Within a quarter of a spread around the middle the share of a normal curve is at most three
quarters. -/
def NormalCurve.IsCentral (curve : NormalCurve) : Prop :=
  ∀ x : Float, Within 0 (1 / 4) x.abs → Within (1 / 2) (3 / 4) (curve.cdf x.abs)

/-- Strictly inside of the shares a quantile is on its side of the middle and within 64 spreads of it; the
whole lies beyond every point. -/
structure NormalCurve.HasQuantiles (curve : NormalCurve) : Prop where
  below {p : Float} {b : Binary} (hp : Binary.ofFloat? p = some b) (hpos : 0 < b.exact)
    (hlt : b.exact < 1 / 2) : Within (-64) 0 (curve.quantile p)
  middle {p : Float} {b : Binary} (hp : Binary.ofFloat? p = some b) (heq : b.exact = 1 / 2) :
    Within 0 0 (curve.quantile p)
  above {p : Float} {b : Binary} (hp : Binary.ofFloat? p = some b) (hgt : 1 / 2 < b.exact)
    (hlt : b.exact < 1) : Within (2 ^ (-113 : ℤ)) 64 (curve.quantile p)
  one : curve.quantile 1.0 = 1.0 / 0.0

namespace NormalCurve.HasQuantiles

variable {curve : NormalCurve} {p : Float} {b : Binary}

theorem upper (h : curve.HasQuantiles) (hp : Binary.ofFloat? p = some b) (hge : 1 / 2 ≤ b.exact)
    (hlt : b.exact < 1) : Within 0 64 (curve.quantile p) := by
  rcases hge.eq_or_lt with heq | hgt
  · exact (h.middle hp heq.symm).mono le_rfl (by norm_num)
  · exact (h.above hp hgt hlt).mono (by positivity) le_rfl

end NormalCurve.HasQuantiles

namespace Normal

theorem scale_pos : 0 < scale := by
  unfold scale
  positivity

theorem series_ge (factor : ℕ) (divisor : ℕ → ℕ) (turns place term sum : ℕ) :
    sum ≤ series factor divisor turns place term sum := by
  induction turns generalizing place term sum with
  | zero => exact le_refl _
  | succ turns ih => exact (Nat.le_add_right _ _).trans (ih _ _ _)

theorem growth_ge (x : ℕ) : scale ≤ growth x := series_ge _ _ _ _ _ _

theorem fraction_ge (x turns n : ℕ) : x ≤ fraction x turns n := by
  cases turns with
  | zero => exact le_refl _
  | succ turns => exact Nat.le_add_right _ _

theorem peak_lt : peak < scale := by
  decide

theorem mul_times_le {m n a b : ℕ} (h : n * b ≤ m * scale) : n * times a b ≤ m * a :=
  calc n * (a * b / scale) ≤ n * (a * b) / scale := Nat.mul_div_le_mul_div_assoc _ _ _
    _ ≤ m * a * scale / scale := Nat.div_le_div_right (by nlinarith)
    _ = m * a := Nat.mul_div_cancel _ scale_pos

theorem series_le {factor : ℕ} (hfactor : 2 * factor ≤ scale) (divisor : ℕ → ℕ)
    (turns place term sum : ℕ) : series factor divisor turns place term sum ≤ sum + term := by
  induction turns generalizing place term sum with
  | zero => exact Nat.le_add_right _ _
  | succ turns ih =>
    have hproduct : 2 * times term factor ≤ 1 * term := mul_times_le (by omega)
    have hdivided := Nat.div_le_self (times term factor) (divisor place)
    have hrest := ih (place + 1) (times term factor / divisor place)
      (sum + times term factor / divisor place)
    rw [series]
    omega

theorem five_peak_le : 5 * peak ≤ 2 * scale := by
  decide

/-- The share above a point near the middle is at least a quarter. -/
theorem tail_ge {x : ℕ} (hx : 4 * x ≤ scale) : (tail x).2 ≤ 4 * (tail x).1 := by
  have hgrowth := growth_ge x
  have hscale := scale_pos
  have hpeak := five_peak_le
  have hsquare : 4 * times x x ≤ 1 * x := mul_times_le (by omega)
  have hodd : oddSeries x ≤ x + x := series_le (by omega) _ 200 0 x x
  have hproduct : 2 * times peak (oddSeries x) ≤ 1 * peak := mul_times_le (by omega)
  rw [tail, if_pos (by omega)]
  dsimp only
  omega

/-- The share above a point at or above the middle is at most a half. -/
theorem tail_le (x : ℕ) : 2 * (tail x).1 ≤ (tail x).2 ∧ 0 < (tail x).2 := by
  have hgrowth := growth_ge x
  have hfraction := fraction_ge x 160 1
  have hpeak := peak_lt
  have hscale := scale_pos
  rw [tail]
  generalize growth x = g at *
  generalize fraction x 160 1 = f at *
  generalize oddSeries x = odd
  generalize peak = p at *
  by_cases hnear : x < 4 * scale
  · rw [if_pos hnear]
    generalize scale = u at *
    dsimp only
    omega
  · rw [if_neg hnear]
    generalize scale = u at *
    have hwhole : u * (4 * u) ≤ g * f := Nat.mul_le_mul hgrowth (by omega)
    have habove : p * u ≤ u * u := Nat.mul_le_mul_right _ hpeak.le
    have hpos : 0 < u * u := Nat.mul_pos hscale hscale
    dsimp only
    constructor <;> nlinarith

theorem bisect_lt (keep : ℕ → Bool) (steps low : ℕ) : bisect keep steps low < low + 2 ^ steps := by
  induction steps generalizing low with
  | zero => exact Nat.lt_succ_self _
  | succ steps ih =>
    have hupper := ih (low + 2 ^ steps)
    have hlower := ih low
    rw [bisect, pow_succ]
    split_ifs <;> omega

theorem tailPoint_lt (num den : ℕ) : tailPoint num den < 2 ^ 118 :=
  (bisect_lt _ 118 0).trans_eq (Nat.zero_add _)

/-- The share below a point is what the share above leaves. -/
theorem within_shareBelow {share : ℕ × ℕ} {hi : ℚ} (hhi : OnGrid hi) (hhalf : 2 * share.1 ≤ share.2)
    (hpos : 0 < share.2) (hle : ((share.2 - share.1 : ℕ) : ℚ) ≤ hi * share.2) :
    Within (1 / 2) hi (shareBelow false share) := by
  obtain ⟨above, whole⟩ := share
  have hwhole : (0 : ℚ) < whole := by exact_mod_cast hpos
  have hge : (whole : ℚ) ≤ 2 * (whole - above : ℕ) := by
    have : whole ≤ 2 * (whole - above) := by
      dsimp only at hhalf
      omega
    exact_mod_cast this
  refine Binary.ofQuotient_faithful false (whole - above) hpos _ _
    (by simpa using onGrid_zpow (-1) (by norm_num) (by norm_num)) hhi ?_ ?_
  · rw [if_neg (by simp), le_div_iff₀ hwhole]
    linarith
  · rw [if_neg (by simp), div_le_iff₀ hwhole]
    exact hle

theorem negative_abs {x : Float} {b : Binary} (h : Binary.ofFloat? x.abs = some b) :
    b.negative = false := by
  cases hx : Binary.ofFloat? x with
  | none =>
    rcases special_of_ofFloat?_none hx with ⟨hnan, -⟩ | ⟨-, -, rfl⟩ | ⟨-, -, rfl⟩
    · rw [eq_of_isNaN hnan] at h
      exact absurd (h.symm.trans (by decide : Binary.ofFloat? Float.nan.abs = none)) nofun
    all_goals exact absurd (h.symm.trans (by decide : _ = none)) nofun
  | some d =>
    cases h.symm.trans (Binary.ofFloat?_abs hx)
    rfl

theorem within_cdf_abs {x : Float} (h : x.isNaN = false) : Within (1 / 2) 1 (cdf x.abs) := by
  cases hx : Binary.ofFloat? x with
  | none =>
    rcases special_of_ofFloat?_none hx with ⟨hnan, -⟩ | ⟨-, -, rfl⟩ | ⟨-, -, rfl⟩
    · rw [h] at hnan
      cases hnan
    all_goals decide +kernel
  | some b =>
    obtain ⟨d, hd, hsign⟩ : ∃ d, Binary.ofFloat? x.abs = some d ∧ d.negative = false :=
      ⟨_, Binary.ofFloat?_abs hx, rfl⟩
    obtain ⟨hhalf, hpos⟩ := tail_le (d.numerator * scale / d.denominator)
    rw [cdf, hd]
    dsimp only
    rw [hsign]
    by_cases hfar : 40 * d.denominator ≤ d.numerator
    · rw [if_pos hfar, if_neg Bool.false_ne_true]
      decide +kernel
    · rw [if_neg hfar]
      refine within_shareBelow (by simpa using onGrid_int 1 (by norm_num)) hhalf hpos ?_
      rw [one_mul]
      exact_mod_cast Nat.sub_le _ _

theorem onGrid_three_quarters : OnGrid (3 / 4) :=
  ⟨3, -2, by norm_num, by norm_num, by norm_num, by norm_num⟩

theorem within_cdf_central {x : Float} (h : Within 0 (1 / 4) x.abs) :
    Within (1 / 2) (3 / 4) (cdf x.abs) := by
  obtain ⟨d, hd, -, hquarter⟩ := h
  have hsign := negative_abs hd
  have hden := d.denominator_pos
  have hnear : 4 * d.numerator ≤ d.denominator := by
    rw [Binary.exact_of_positive hsign, ← d.numerator_div_denominator,
      div_le_iff₀ (by exact_mod_cast hden)] at hquarter
    have : (4 : ℚ) * d.numerator ≤ d.denominator := by linarith
    exact_mod_cast this
  have hpoint : 4 * (d.numerator * scale / d.denominator) ≤ scale :=
    calc 4 * (d.numerator * scale / d.denominator) ≤ 4 * (d.numerator * scale) / d.denominator :=
          Nat.mul_div_le_mul_div_assoc _ _ _
      _ ≤ scale * d.denominator / d.denominator := Nat.div_le_div_right (by nlinarith)
      _ = scale := Nat.mul_div_cancel _ hden
  obtain ⟨hhalf, hpos⟩ := tail_le (d.numerator * scale / d.denominator)
  have hshare := tail_ge hpoint
  rw [cdf, hd]
  dsimp only
  rw [if_neg (by omega), hsign]
  refine within_shareBelow onGrid_three_quarters hhalf hpos ?_
  generalize tail (d.numerator * scale / d.denominator) = share at *
  have hrest : 4 * (share.2 - share.1) ≤ 3 * share.2 := by omega
  have : (4 : ℚ) * (share.2 - share.1 : ℕ) ≤ 3 * share.2 := by exact_mod_cast hrest
  linarith

/-- Strictly between zero and one a quantile is on the side of the middle that its share is on. -/
theorem quantile_inside {p : Float} {b : Binary} (hp : Binary.ofFloat? p = some b)
    (hpos : 0 < b.exact) (hlt : b.exact < 1) : quantile p =
      if 2 * b.numerator = b.denominator then 0.0
      else if 2 * b.numerator < b.denominator then
        Binary.ofQuotient true (2 * tailPoint b.numerator b.denominator + 1) (2 ^ 113)
      else Binary.ofQuotient false
        (2 * tailPoint (b.denominator - b.numerator) b.denominator + 1) (2 ^ 113) := by
  have hsign : b.negative = false := by
    by_contra hneg
    have := b.magnitudeValue_nonneg
    rw [Binary.exact_eq, if_pos (by simpa using hneg)] at hpos
    linarith
  have hden : (0 : ℚ) < b.denominator := by exact_mod_cast b.denominator_pos
  rw [Binary.exact_of_positive hsign, ← b.numerator_div_denominator] at hpos hlt
  have hnum : 0 < b.numerator := by
    by_contra hzero
    rw [Nat.eq_zero_of_not_pos hzero, Nat.cast_zero, zero_div] at hpos
    exact hpos.false
  have hone : b.numerator < b.denominator := by
    rw [div_lt_one hden] at hlt
    exact_mod_cast hlt
  have hinside : ¬(b.negative = true ∨ b.denominator < b.numerator) := by
    rw [hsign]
    simp only [Bool.false_eq_true, false_or, not_lt]
    exact hone.le
  rw [quantile, hp]
  dsimp only
  rw [if_neg hnum.ne', if_neg hone.ne, if_neg hinside]

theorem within_tailPoint (num den : ℕ) : Within (2 ^ (-113 : ℤ)) 64
    (Binary.ofQuotient false (2 * tailPoint num den + 1) (2 ^ 113)) ∧
    Within (-64) 0 (Binary.ofQuotient true (2 * tailPoint num den + 1) (2 ^ 113)) := by
  have hpoint := tailPoint_lt num den
  generalize tailPoint num den = n at hpoint
  have hle : ((2 * n + 1 : ℕ) : ℚ) / (2 ^ 113 : ℕ) ≤ 64 := by
    have hbound : 2 * n + 1 ≤ 64 * 2 ^ 113 := by omega
    rw [div_le_iff₀ (by positivity)]
    exact_mod_cast hbound
  have hge : (2 : ℚ) ^ (-113 : ℤ) ≤ ((2 * n + 1 : ℕ) : ℚ) / (2 ^ 113 : ℕ) := by
    rw [le_div_iff₀ (by positivity)]
    push_cast
    norm_num
  constructor
  · exact Binary.ofQuotient_faithful false (2 * n + 1) (by positivity) _ _
      (onGrid_zpow _ (by norm_num) (by norm_num)) (onGrid_ofNat 64 (by norm_num)) hge hle
  · refine Binary.ofQuotient_faithful true (2 * n + 1) (by positivity) _ _
      (onGrid_ofNat 64 (by norm_num)).neg onGrid_zero ?_ ?_
    · exact neg_le_neg hle
    · rw [if_pos rfl, neg_nonpos]
      positivity

theorem numerator_lt_iff {b : Binary} (hpos : 0 < b.exact) :
    (2 * b.numerator < b.denominator ↔ b.exact < 1 / 2) ∧
      (2 * b.numerator = b.denominator ↔ b.exact = 1 / 2) := by
  have hvalue : b.exact = (b.numerator : ℚ) / b.denominator := by
    rw [b.numerator_div_denominator, ← abs_of_pos hpos, b.abs_exact]
  have hden : (0 : ℚ) < b.denominator := by exact_mod_cast b.denominator_pos
  rw [hvalue, div_lt_div_iff₀ hden two_pos, div_eq_div_iff hden.ne' two_ne_zero, mul_comm 2, one_mul]
  exact ⟨by exact_mod_cast Iff.rfl, by exact_mod_cast Iff.rfl⟩

theorem within_quantile_above {p : Float} {b : Binary} (hp : Binary.ofFloat? p = some b)
    (hgt : 1 / 2 < b.exact) (hlt : b.exact < 1) : Within (2 ^ (-113 : ℤ)) 64 (quantile p) := by
  have hpos : 0 < b.exact := by linarith
  obtain ⟨hbelow, hmiddle⟩ := numerator_lt_iff hpos
  rw [quantile_inside hp hpos hlt, if_neg (hmiddle.not.mpr hgt.ne'), if_neg (hbelow.not.mpr hgt.not_gt)]
  exact (within_tailPoint _ _).1

theorem within_quantile_middle {p : Float} {b : Binary} (hp : Binary.ofFloat? p = some b)
    (heq : b.exact = 1 / 2) : Within 0 0 (quantile p) := by
  have hpos : 0 < b.exact := by
    rw [heq]
    norm_num
  rw [quantile_inside hp hpos (by rw [heq]; norm_num), if_pos ((numerator_lt_iff hpos).2.mpr heq)]
  decide +kernel

theorem within_quantile_below {p : Float} {b : Binary} (hp : Binary.ofFloat? p = some b)
    (hpos : 0 < b.exact) (hlt : b.exact < 1 / 2) : Within (-64) 0 (quantile p) := by
  obtain ⟨hbelow, hmiddle⟩ := numerator_lt_iff hpos
  rw [quantile_inside hp hpos (by linarith), if_neg (hmiddle.not.mpr hlt.ne), if_pos (hbelow.mpr hlt)]
  exact (within_tailPoint _ _).2

end Normal

theorem standardNormal_givesShares : standardNormal.GivesShares := fun _ => Normal.within_cdf_abs

theorem standardNormal_hasQuantiles : standardNormal.HasQuantiles where
  below := Normal.within_quantile_below
  middle := Normal.within_quantile_middle
  above := Normal.within_quantile_above
  one := by decide

theorem standardNormal_isCentral : standardNormal.IsCentral := fun _ => Normal.within_cdf_central

theorem standardNormal_isLawful : standardNormal.IsLawful where
  cdf_abs x := by
    cases hx : x.isNaN with
    | true =>
      left
      rw [eq_of_isNaN hx]
      decide
    | false => exact .inr (standardNormal_givesShares x hx)
  quantile_upper := standardNormal_hasQuantiles.upper

end CohortAnalytics
