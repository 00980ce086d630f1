import CohortAnalytics.Proofs.Number.Order

/-!
The double of a quotient is the one nearest to it, and of two that are as near it is the one with the
even mantissa. So the double of a greater quotient is never less.
-/

namespace CohortAnalytics

/-- No finite double is nearer to the number, and another is as near only to one with an even
mantissa. -/
def IsNearest (v : ℚ) (x : Float) : Prop :=
  ∃ b, Binary.ofFloat? x = some b ∧ ∀ y d, Binary.ofFloat? y = some d →
    |b.exact - v| ≤ |d.exact - v| ∧
      (|d.exact - v| = |b.exact - v| → d.exact = b.exact ∨ b.mantissa % 2 = 0)

theorem IsNearest.le {v w : ℚ} {x y : Float} (hx : IsNearest v x) (hy : IsNearest w y) (h : v < w) :
    x ≤ y := by
  obtain ⟨b, hb, hbnear⟩ := hx
  obtain ⟨d, hd, hdnear⟩ := hy
  have hle : b.exact ≤ d.exact := by
    by_contra hlt
    -- the middle between the two would lie above the greater number and below the less
    have hb' := (hbnear y d hd).1
    have hd' := (hdnear x b hb).1
    rw [← sq_le_sq] at hb' hd'
    nlinarith
  rw [Double.le_iff_position (isNaN_of_ofFloat? hb) (isNaN_of_ofFloat? hd), Number.position_float hb,
    Number.position_float hd]
  exact_mod_cast hle

namespace Binary

theorem nearest_within (num : ℕ) {den : ℕ} (hden : 0 < den) :
    2 * num ≤ 2 * (den * nearest num den) + den ∧ 2 * (den * nearest num den) ≤ 2 * num + den ∧
      (2 * num = 2 * (den * nearest num den) + den ∨ 2 * (den * nearest num den) = 2 * num + den →
        nearest num den % 2 = 0) := by
  have hsum := Nat.div_add_mod num den
  have hrest := Nat.mod_lt num hden
  have hnext := Nat.mul_add den (num / den) 1
  unfold nearest
  dsimp only
  split_ifs <;> omega

/-- No whole number is nearer, and another is as near only to an even one. -/
theorem nearest_spec (num : ℕ) {den : ℕ} (hden : 0 < den) (m : ℤ) :
    |(nearest num den : ℚ) - num / den| ≤ |(m : ℚ) - num / den| ∧
      (|(m : ℚ) - num / den| = |(nearest num den : ℚ) - num / den| →
        m = nearest num den ∨ nearest num den % 2 = 0) := by
  have hpos : (0 : ℚ) < den := by exact_mod_cast hden
  obtain ⟨hlow, hhigh, htie⟩ := nearest_within num hden
  generalize nearest num den = r at *
  obtain ⟨q, hq⟩ : ∃ q : ℚ, (num : ℚ) / den = q := ⟨_, rfl⟩
  have hnum : (num : ℚ) = q * den := (div_eq_iff hpos.ne').mp hq
  have hlow' : q * den ≤ (r + 1 / 2) * den := by
    have : (2 : ℚ) * num ≤ 2 * (den * r) + den := by exact_mod_cast hlow
    rw [hnum] at this
    linarith
  have hhigh' : (r - 1 / 2) * den ≤ q * den := by
    have : (2 : ℚ) * (den * r) ≤ 2 * num + den := by exact_mod_cast hhigh
    rw [hnum] at this
    linarith
  have hhalf : |(r : ℚ) - q| ≤ 1 / 2 := by
    rw [abs_le]
    constructor <;> linarith [le_of_mul_le_mul_right hlow' hpos, le_of_mul_le_mul_right hhigh' hpos]
  rw [hq]
  by_cases hm : m = r
  · subst hm
    exact ⟨by simp, fun _ => .inl rfl⟩
  · have hapart : (1 : ℚ) ≤ |(m : ℚ) - r| := by
      exact_mod_cast Int.one_le_abs (sub_ne_zero.mpr hm)
    have htriangle := abs_sub_le (m : ℚ) q r
    rw [abs_sub_comm q] at htriangle
    refine ⟨by linarith, fun heq => .inr ?_⟩
    have hexact : |(r : ℚ) - q| = 1 / 2 := by linarith
    apply htie
    rcases abs_cases ((r : ℚ) - q) with ⟨habs, -⟩ | ⟨habs, -⟩
    · right
      have : (2 : ℚ) * (den * r) = 2 * num + den := by
        rw [hnum, show (r : ℚ) = q + 1 / 2 by linarith]
        ring
      exact_mod_cast this
    · left
      have : (2 : ℚ) * num = 2 * (den * r) + den := by
        rw [hnum, show (r : ℚ) = q - 1 / 2 by linarith]
        ring
      exact_mod_cast this

theorem exact_multiple (b : Binary) : ∃ n : ℤ, |n| = b.mantissa ∧ b.exact = n * 2 ^ b.exponent := by
  rw [exact_eq, magnitudeValue]
  split_ifs
  · exact ⟨-b.mantissa, by simp, by simp⟩
  · exact ⟨b.mantissa, by simp, by simp⟩

theorem isNearest_of_cell {v : ℚ} {t : ℤ} {r : ℕ} {x : Float} (h : Cell v t r)
    (hspec : ∀ m : ℤ, |(r : ℚ) - v / 2 ^ t| ≤ |(m : ℚ) - v / 2 ^ t| ∧
      (|(m : ℚ) - v / 2 ^ t| = |(r : ℚ) - v / 2 ^ t| → m = r ∨ r % 2 = 0))
    (hx : ofFloat? x = some (carried false r t)) : IsNearest v x := by
  have hunit : (0 : ℚ) < 2 ^ t := by positivity
  have hscale (q : ℚ) : |q * 2 ^ t - v| = |q - v / 2 ^ t| * 2 ^ t := by
    rw [← abs_of_pos hunit, ← abs_mul, abs_of_pos hunit, sub_mul, div_mul_cancel₀ _ hunit.ne']
  have heven (hr : r % 2 = 0) : (carried false r t).mantissa % 2 = 0 := by
    rw [carried]
    split_ifs
    · exact hr
    · norm_num
  have hexact : (carried false r t).exact = (r : ℚ) * 2 ^ t := carried_exact h false
  refine ⟨_, hx, fun y d hd => ?_⟩
  -- among the multiples of the unit the mantissa is the nearest one
  have hmultiple (m : ℤ) : |(r : ℚ) * 2 ^ t - v| ≤ |(m : ℚ) * 2 ^ t - v| ∧
      (|(m : ℚ) * 2 ^ t - v| = |(r : ℚ) * 2 ^ t - v| →
        (m : ℚ) * 2 ^ t = r * 2 ^ t ∨ (carried false r t).mantissa % 2 = 0) := by
    obtain ⟨hle, htie⟩ := hspec m
    rw [hscale, hscale]
    refine ⟨by gcongr, fun heq => ?_⟩
    rcases htie (mul_right_cancel₀ hunit.ne' heq) with rfl | hr
    · exact .inl (by simp)
    · exact .inr (heven hr)
  have hdouble := isDouble_of_ofFloat? hd
  obtain ⟨n, hn, hvalue⟩ := d.exact_multiple
  rw [hexact]
  rcases Cell.multiple_or_small (n := n) (by rw [hn]; exact_mod_cast hdouble.mantissa_lt.le)
    hdouble.exponent_ge t with ⟨m, hm⟩ | ⟨ht, hsmall⟩
  · rw [hvalue, hm]
    exact hmultiple m
  · -- what is no multiple lies below the first number of the binade, which is one
    have hfull := h.full.resolve_left ht
    rw [← hvalue] at hsmall
    obtain ⟨hle, htie⟩ := hmultiple (2 ^ 52)
    have hstart : (2 : ℚ) ^ (t + 52) = ((2 ^ 52 : ℤ) : ℚ) * 2 ^ t := Cell.two_zpow_add t 52
    rw [← hstart] at hle htie
    have hd' := (le_abs_self d.exact).trans hsmall
    rw [abs_of_nonpos (sub_nonpos.mpr hfull)] at hle htie
    rw [abs_of_nonpos (sub_nonpos.mpr (hd'.trans hfull))]
    refine ⟨by linarith, fun heq => ?_⟩
    have hsame : d.exact = 2 ^ (t + 52) := by linarith
    rw [hsame]
    exact htie (by linarith)

theorem isNearest_zero {x : Float} (hx : ofFloat? x = some ⟨false, 0, -1074⟩) : IsNearest 0 x := by
  refine ⟨_, hx, fun y d _ => ⟨?_, fun _ => .inr rfl⟩⟩
  rw [exact_zero rfl, sub_zero, abs_zero]
  exact abs_nonneg _

/-- Well inside the range of doubles the double of a quotient is the nearest one. -/
theorem isNearest_ofQuotient (num : ℕ) {den : ℕ} (hden : 0 < den) {bound : ℚ} (hbound : OnGrid bound)
    (hle : (num : ℚ) / den ≤ bound) : IsNearest ((num : ℚ) / den) (ofQuotient false num den) := by
  rcases Nat.eq_zero_or_pos num with rfl | hnum
  · have hzero := ofFloat?_ofBits (isDouble_zero false)
    rw [pattern_zero] at hzero
    rw [Nat.cast_zero, zero_div]
    apply isNearest_zero
    rw [ofQuotient, if_pos rfl]
    exact hzero
  · obtain ⟨t, hcell, hbits⟩ := quotient_cell_nearest hnum hden
    refine isNearest_of_cell hcell ?_ (ofFloat?_ofQuotient hnum hcell hbits
      (carried_isDouble hcell (hcell.exponent_le hbound hle) false))
    intro m
    rw [← scaled_quotient]
    exact nearest_spec _ (by positivity) m

end Binary

end CohortAnalytics
