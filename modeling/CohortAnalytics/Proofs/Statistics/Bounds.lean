import CohortAnalytics.Proofs.Results
import CohortAnalytics.Proofs.Statistics.Curve
import CohortAnalytics.Statistics.Analysis
import CohortAnalytics.Statistics.SampleSize

/-!
Where the numbers of a result lie: rates are shares, a confidence is a percentage, and a rate that is
not vanishingly small leads to a sample size. On any counts the statistic is a number, and there is a
winner exactly when the result is significant.
-/

namespace CohortAnalytics

/-- A percentage, unless it is no number at all. -/
def IsPercentage (x : Float) : Prop := x.isNaN = true ∨ Within 0 100 x

theorem within_confidence {curve : NormalCurve} {z : Float}
    (hshare : Within (1 / 2) 1 (curve.cdf z.abs)) : Within 0 100 (confidence curve z) := by
  have hhundred : OnGrid (100 : ℕ) := onGrid_natCast 100 (by norm_num)
  have hdouble : Within 1 2 (2 * curve.cdf z.abs) :=
    Within.two.mul hshare (by norm_num) (by norm_num) onGrid_one
      (onGrid_ofNat 2 (by norm_num)) (by norm_num) (by norm_num)
  have hcentral : Within 0 1 (2 * curve.cdf z.abs - 1) :=
    hdouble.sub Within.one onGrid_zero onGrid_one (by norm_num)
      (by norm_num)
  have hpercent : Within 0 (100 : ℕ) ((2 * curve.cdf z.abs - 1) * 100) :=
    hcentral.mul Within.hundred (le_refl _) (by norm_num) onGrid_zero
      hhundred (by norm_num) (by norm_num)
  exact_mod_cast hpercent.roundPlaces hhundred 2

theorem isPercentage_confidence {curve : NormalCurve} (hcurve : curve.IsLawful) (z : Float) :
    IsPercentage (confidence curve z) := by
  rcases hcurve.cdf_abs z with hnan | hshare
  · left
    rw [confidence, rawConfidence, eq_of_isNaN hnan]
    decide +kernel
  · exact .inr (within_confidence hshare)

theorem mem_of_least? {α : Type} {before : α → α → Bool} {xs : List α} {best : α}
    (h : least? before xs = some best) : best ∈ xs := by
  cases xs with
  | nil => cases h
  | cons x rest =>
    rw [least?, Option.some_inj] at h
    subst h
    induction rest generalizing x with
    | nil => exact List.mem_singleton_self x
    | cons y rest ih =>
      rw [List.foldl_cons]
      have hmem := ih (if before y x then y else x)
      split_ifs at hmem ⊢ <;> simp only [List.mem_cons] at hmem ⊢ <;> tauto

namespace Analysis

variable {curve : NormalCurve} {variants : List VariantStats}

theorem mem_comparisonsOf {c : Comparison} (h : c ∈ comparisonsOf curve variants) :
    ∃ control ∈ variants, ∃ v ∈ variants, c = compareVariants curve control v := by
  have hactive : ∀ v ∈ active variants, v ∈ variants := fun v hv => (List.mem_filter.mp hv).1
  rw [comparisonsOf] at h
  cases hsplit : active variants with
  | nil =>
    rw [hsplit] at h
    exact absurd h List.not_mem_nil
  | cons control others =>
    rw [hsplit] at h hactive
    obtain ⟨v, hv, rfl⟩ := List.mem_map.mp h
    exact ⟨control, hactive _ List.mem_cons_self, v, hactive _ (List.mem_cons_of_mem _ hv), rfl⟩

theorem confidence_ofVariants (curve : NormalCurve) (variants : List VariantStats) :
    (ofVariants curve variants).confidence = 0.0 ∨ ∃ control ∈ variants, ∃ v ∈ variants,
      (ofVariants curve variants).confidence = (compareVariants curve control v).confidence := by
  rw [ofVariants]
  dsimp only
  cases hbest : least? Comparison.before (comparisonsOf curve variants) with
  | none => exact .inl rfl
  | some best =>
    obtain ⟨control, hcontrol, v, hv, rfl⟩ := mem_comparisonsOf (mem_of_least? hbest)
    exact .inr ⟨control, hcontrol, v, hv, rfl⟩

theorem isPercentage_ofVariants (hcurve : curve.IsLawful) (variants : List VariantStats) :
    IsPercentage (ofVariants curve variants).confidence := by
  rcases confidence_ofVariants curve variants with hnone | ⟨control, -, v, -, hbest⟩
  · rw [hnone]
    exact .inr (by decide +kernel)
  · rw [hbest]
    exact isPercentage_confidence hcurve _

theorem id_of_statsOf? {id : String} {v : VariantStats} (h : statsOf? variants id = some v) :
    v ∈ variants := by
  exact List.mem_reverse.mp (List.mem_of_find?_eq_some h)

theorem mem_of_pickWinner? {id : String}
    (h : pickWinner? variants (comparisonsOf curve variants) = some id) :
    id ∈ variants.map VariantStats.id := by
  rw [pickWinner?] at h
  split at h
  case h_1 best hbest =>
    obtain ⟨c, -, hc⟩ := List.mem_filterMap.mp (mem_of_least? hbest)
    rw [← Option.some_inj.mp h]
    exact List.mem_map_of_mem (id_of_statsOf? hc)
  case h_2 =>
    obtain ⟨c, hc, rfl⟩ := Option.map_eq_some_iff.mp h
    obtain ⟨control, hcontrol, v, -, rfl⟩ :=
      mem_comparisonsOf (List.mem_filter.mp (List.mem_of_head? hc)).1
    exact List.mem_map_of_mem hcontrol

/-- A winner is one of the variants, and only a significant result has one. -/
theorem winner_ofVariants {id : String} (h : (ofVariants curve variants).winner = some id) :
    id ∈ variants.map VariantStats.id ∧ (ofVariants curve variants).isSignificant = true := by
  rw [ofVariants] at h ⊢
  dsimp only at h ⊢
  split at h
  case h_1 => cases h
  case h_2 best hbest =>
    dsimp only at h ⊢
    split_ifs at h with hsignificant
    exact ⟨mem_of_pickWinner? h, hsignificant⟩

end Analysis

/-- A rate or an effect from which a sample size can be found. -/
theorem sampleSize_ok {curve : NormalCurve} (hcurve : curve.IsLawful) {baseline effect : Float}
    (hbaseline : Within (2 ^ (-63 : ℤ)) 1 baseline) (heffect : Within (2 ^ (-4 : ℤ)) 1 effect) :
    ∃ n, sampleSize curve baseline effect 95.0 0.8 = .ok n := by
  have hconfidence : Within (1 / 2) (99 / 100) (1 - (1 - 95.0 / 100) / 2) := by decide +kernel
  have hpower : Within (1 / 2) (99 / 100) 0.8 := by decide +kernel
  have hquantile {p : Float} (hp : Within (1 / 2) (99 / 100) p) : Within 0 64 (curve.quantile p) := by
    obtain ⟨b, hb, hge, hle⟩ := hp
    exact hcurve.quantile_upper hb hge (hle.trans_lt (by norm_num))
  have hz : Within 0 128 (curve.quantile (1 - (1 - 95.0 / 100) / 2) + curve.quantile 0.8) :=
    (hquantile hconfidence).add (hquantile hpower) onGrid_zero (onGrid_ofNat 128 (by norm_num))
      (by norm_num) (by norm_num)
  have hproduct : Within (2 ^ (-67 : ℤ)) 1 (baseline * effect) :=
    hbaseline.mul heffect (by positivity) (by positivity) (onGrid_zpow _ (by norm_num) (by norm_num))
      onGrid_one (by norm_num) (by norm_num)
  have hsquare : Within (2 ^ (-134 : ℤ)) 1 (baseline * effect * (baseline * effect)) :=
    hproduct.mul hproduct (by positivity) (by positivity)
      (onGrid_zpow _ (by norm_num) (by norm_num)) onGrid_one (by norm_num) (by norm_num)
  rw [sampleSize]
  generalize curve.quantile (1 - (1 - 95.0 / 100) / 2) + curve.quantile 0.8 = z at hz
  have htwice : Within 0 (2 ^ (15 : ℤ)) (z * z * 2) := by
    have hzz : Within 0 (2 ^ (14 : ℤ)) (z * z) :=
      hz.mul hz (le_refl _) (le_refl _) onGrid_zero (onGrid_zpow _ (by norm_num) (by norm_num))
        (by norm_num) (by norm_num)
    exact hzz.mul Within.two (le_refl _) (by norm_num) onGrid_zero
      (onGrid_zpow _ (by norm_num) (by norm_num)) (by norm_num) (by norm_num)
  have hrest : Within 0 1 (1 - baseline) :=
    Within.one.sub hbaseline onGrid_zero onGrid_one (by norm_num)
      (by norm_num)
  have hspread : Within 0 (2 ^ (15 : ℤ)) (z * z * 2 * baseline * (1 - baseline)) := by
    have hshare : Within 0 (2 ^ (15 : ℤ)) (z * z * 2 * baseline) :=
      htwice.mul hbaseline (le_refl _) (by positivity) onGrid_zero
        (onGrid_zpow _ (by norm_num) (by norm_num)) (by norm_num) (by norm_num)
    exact hshare.mul hrest (le_refl _) (le_refl _) onGrid_zero
      (onGrid_zpow _ (by norm_num) (by norm_num)) (by norm_num) (by norm_num)
  have hsize : Within 0 (2 ^ (149 : ℤ)) (z * z * 2 * baseline * (1 - baseline) /
      (baseline * effect * (baseline * effect))) :=
    hspread.div hsquare (le_refl _) (by positivity) onGrid_zero
      (onGrid_zpow _ (by norm_num) (by norm_num)) (by norm_num) (by norm_num)
  obtain ⟨b, hb, -, -⟩ := hsize
  rw [squareSize, hsquare.isInf, Bool.and_false, if_neg Bool.false_ne_true]
  change ∃ n, ceilSize _ = .ok n
  rw [ceilSize, ceilFloat?, hb]
  exact ⟨_, rfl⟩

theorem minimumSampleSize_ok {curve : NormalCurve} (hcurve : curve.IsLawful)
    {baseline effect : Float} (hbaseline : Within (2 ^ (-63 : ℤ)) 1 baseline)
    (heffect : Within (2 ^ (-4 : ℤ)) 1 effect) :
    ∃ n, minimumSampleSize curve (.float baseline) (.float effect) = .ok n := by
  obtain ⟨n, hn⟩ := sampleSize_ok hcurve hbaseline heffect
  rw [minimumSampleSize]
  split_ifs
  · exact ⟨none, rfl⟩
  · exact ⟨none, rfl⟩
  · refine ⟨some n, ?_⟩
    change (sampleSize curve baseline effect 95.0 0.8 >>= fun m => Except.ok (some m)) = _
    rw [hn]
    rfl

theorem Binary.within_share {part whole : ℕ} (hle : part ≤ whole) (hpos : 0 < whole) :
    Within 0 1 (Binary.ofQuotient false part whole) := by
  refine Binary.ofQuotient_faithful false part hpos _ _ onGrid_zero onGrid_one ?_ ?_
  · rw [if_neg Bool.false_ne_true]
    positivity
  · rw [if_neg Bool.false_ne_true, div_le_one (by exact_mod_cast hpos)]
    exact_mod_cast hle

theorem VariantStats.rate_within (v : VariantStats) : Within 0 1 v.rate := by
  rw [rate]
  split_ifs with hnone
  · decide +kernel
  · exact Binary.within_share v.conversions_le (Nat.pos_of_ne_zero hnone)

section Score

variable {control variant : VariantStats}

theorem isNaN_standardError (hcontrol : 0 < control.users) (hvariant : 0 < variant.users) :
    (standardError control variant).isNaN = false := by
  have hpooled : Within 0 1 (Binary.ofQuotient false (control.conversions + variant.conversions)
      (control.users + variant.users)) :=
    Binary.within_share (Nat.add_le_add control.conversions_le variant.conversions_le) (by omega)
  have hspread : Within 0 2 (Binary.ofQuotient false 1 control.users +
      Binary.ofQuotient false 1 variant.users) :=
    (Binary.within_share hcontrol hcontrol).add (Binary.within_share hvariant hvariant) onGrid_zero
      (onGrid_ofNat 2 (by norm_num)) (by norm_num) (by norm_num)
  rw [standardError]
  generalize Binary.ofQuotient false (control.conversions + variant.conversions)
    (control.users + variant.users) = pooled at hpooled
  have hrest : Within 0 1 (1 - pooled) :=
    Within.one.sub hpooled onGrid_zero onGrid_one (by norm_num)
      (by norm_num)
  have hvariance : Within 0 1 (pooled * (1 - pooled)) :=
    hpooled.mul hrest (le_refl _) (le_refl _) onGrid_zero onGrid_one (by norm_num) (by norm_num)
  exact (hvariance.mul hspread (le_refl _) (le_refl _) onGrid_zero (onGrid_ofNat 2 (by norm_num))
    (by norm_num) (by norm_num)).isNaN_sqrt

theorem isNaN_zScore (control variant : VariantStats) : (zScore control variant).isNaN = false := by
  rw [zScore]
  split_ifs with hnone
  · rfl
  dsimp only
  split_ifs with hzero
  · rfl
  -- The spread may be too small for a double, but then it is zero and no quotient is taken.
  obtain ⟨hcontrol, hvariant⟩ := not_or.mp hnone
  have hdifference : Within (-1) 1 (variant.rate - control.rate) :=
    variant.rate_within.sub control.rate_within onGrid_one.neg onGrid_one (by norm_num) (by norm_num)
  exact hdifference.isNaN_div
    (isNaN_standardError (Nat.pos_of_ne_zero hcontrol) (Nat.pos_of_ne_zero hvariant))
    (Bool.eq_false_iff.mpr hzero)

end Score

namespace Analysis

variable {curve : NormalCurve}

theorem within_confidence_ofVariants (hcurve : curve.GivesShares) (variants : List VariantStats) :
    Within 0 100 (ofVariants curve variants).confidence := by
  rcases confidence_ofVariants curve variants with hnone | ⟨control, -, v, -, hbest⟩
  · rw [hnone]
    decide +kernel
  · rw [hbest]
    exact within_confidence (hcurve _ (isNaN_zScore control v))

theorem isSome_pickWinner? {variants : List VariantStats} {comparisons : List Comparison}
    {c : Comparison} (hc : c ∈ comparisons) (hsignificant : c.isSignificant = true) :
    (pickWinner? variants comparisons).isSome = true := by
  have hmem : c ∈ comparisons.filter Comparison.isSignificant :=
    List.mem_filter.mpr ⟨hc, hsignificant⟩
  rw [pickWinner?]
  split
  · rfl
  · rw [Option.isSome_map, List.isSome_head?]
    exact List.ne_nil_of_mem hmem

theorem ofVariants_significant {variants : List VariantStats}
    (h : (ofVariants curve variants).isSignificant = true) :
    (ofVariants curve variants).winner.isSome = true ∧
      ∀ v ∈ variants, minimumObservations ≤ v.users := by
  rw [ofVariants] at h ⊢
  dsimp only at h ⊢
  cases hbest : least? Comparison.before (comparisonsOf curve variants) with
  | none =>
    rw [hbest] at h
    cases h
  | some best =>
    rw [hbest] at h
    dsimp only at h ⊢
    rw [if_pos h]
    obtain ⟨hsignificant, henough⟩ := (Bool.and_eq_true _ _).mp h
    exact ⟨isSome_pickWinner? (mem_of_least? hbest) hsignificant,
      fun v hv => of_decide_eq_true (List.all_eq_true.mp henough v hv)⟩

theorem winner_isSome_iff (variants : List VariantStats) :
    (ofVariants curve variants).winner.isSome = true ↔
      (ofVariants curve variants).isSignificant = true := by
  constructor
  · intro h
    obtain ⟨id, hid⟩ := Option.isSome_iff_exists.mp h
    exact (winner_ofVariants hid).2
  · exact fun h => (ofVariants_significant h).1

end Analysis

end CohortAnalytics
