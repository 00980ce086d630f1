import CohortAnalytics.Proofs.Statistics.Reported

/-!
What a result does not depend on: the order of the variants after the control, and, of two variants,
which one is the control. The comparisons follow the order of the variants, and the statistic turns its
sign.
-/

namespace CohortAnalytics

namespace Analysis

section Order

variable {curve : NormalCurve} {control : VariantStats}
  {variants variants' others others' : List VariantStats}

theorem active_cons (h : 0 < control.users) (others : List VariantStats) :
    active (control :: others) = control :: active others :=
  List.filter_cons_of_pos (decide_eq_true h)

theorem active_subset (control : VariantStats) (others : List VariantStats) :
    active others ⊆ control :: others :=
  fun _ hv => List.mem_cons_of_mem _ (List.mem_filter.mp hv).1

theorem hasEnough_perm (h : variants.Perm variants') : hasEnough variants = hasEnough variants' :=
  h.all_eq

theorem shownBetter_perm (h : others.Perm others') :
    (shownBetter curve control others).Perm (shownBetter curve control others') :=
  h.filter _

theorem map_find?_perm {α β : Type} {p : α → Bool} {xs ys : List α} (h : xs.Perm ys) (b : β) :
    (xs.find? p).map (fun _ => b) = (ys.find? p).map fun _ => b := by
  have hfound : (xs.find? p).isSome = (ys.find? p).isSome := by
    rw [Bool.eq_iff_iff, List.find?_isSome, List.find?_isSome]
    simp only [h.mem_iff]
  revert hfound
  cases xs.find? p <;> cases ys.find? p <;> simp

theorem pickWinner?_perm (curve : NormalCurve) (control : VariantStats)
    (hids : (variants.map VariantStats.id).Nodup) (hids' : (variants'.map VariantStats.id).Nodup)
    (hsub : others ⊆ variants) (hsub' : others' ⊆ variants') (h : others.Perm others') :
    pickWinner? variants (others.map (compareVariants curve control)) =
      pickWinner? variants' (others'.map (compareVariants curve control)) := by
  have hinj : Set.InjOn VariantStats.rank {v | v ∈ shownBetter curve control others} := by
    intro v hv w hw hrank
    exact List.inj_on_of_nodup_map hids (hsub (List.mem_filter.mp hv).1)
      (hsub (List.mem_filter.mp hw).1) (VariantStats.id_of_rank hrank)
  rw [pickWinner?_eq hids hsub, pickWinner?_eq hids' hsub', map_find?_perm h control.id,
    least?_perm (VariantStats.ordersBy_before _) hinj (shownBetter_perm h)]

theorem best_perm (hcurve : curve.GivesShares) (control : VariantStats)
    (hids : (others.map VariantStats.id).Nodup) (h : others.Perm others') :
    least? Comparison.before (others.map (compareVariants curve control)) =
      least? Comparison.before (others'.map (compareVariants curve control)) := by
  refine least?_perm (ordersBy_of_givesShares hcurve control others) ?_ (h.map _)
  intro c hc d hd hrank
  obtain ⟨v, hv, rfl⟩ := List.mem_map.mp hc
  obtain ⟨w, hw, rfl⟩ := List.mem_map.mp hd
  rw [List.inj_on_of_nodup_map hids hv hw (Comparison.variant_of_rank hrank)]

/-- The order of the variants after a control with users shows in the order of the comparisons only. -/
theorem ofVariants_perm (hcurve : curve.GivesShares)
    (hids : ((control :: others).map VariantStats.id).Nodup) (hcontrol : 0 < control.users)
    (h : others.Perm others') :
    ofVariants curve (control :: others') =
        { ofVariants curve (control :: others) with
          comparisons := (active others').map (compareVariants curve control) } ∧
      (ofVariants curve (control :: others)).comparisons =
          (active others).map (compareVariants curve control) ∧
        (ofVariants curve (control :: others)).comparisons.Perm
          (ofVariants curve (control :: others')).comparisons := by
  have hperm : (active others).Perm (active others') := h.filter _
  have hids' : ((control :: others').map VariantStats.id).Nodup :=
    ((h.cons control).map _).nodup_iff.mp hids
  have hcomparisons := comparisonsOf_eq curve (active_cons hcontrol others)
  have hcomparisons' := comparisonsOf_eq curve (active_cons hcontrol others')
  have hnodup : ((active others).map VariantStats.id).Nodup :=
    (List.nodup_cons.mp hids).2.sublist (List.filter_sublist.map _)
  have hbest := best_perm hcurve control hnodup hperm
  cases hfound : least? Comparison.before ((active others).map (compareVariants curve control)) with
  | none =>
    have hnone := least?_eq_none.mp hfound
    have hnone' := least?_eq_none.mp (hbest.symm.trans hfound)
    rw [ofVariants_of_none (hcomparisons.trans hnone), ofVariants_of_none (hcomparisons'.trans hnone'),
      hnone, hnone']
    exact ⟨rfl, rfl, .nil⟩
  | some best =>
    have hwinner := pickWinner?_perm curve control hids hids'
      (active_subset control others) (active_subset control others') hperm
    rw [ofVariants_of_best ((congrArg _ hcomparisons).trans hfound),
      ofVariants_of_best ((congrArg _ hcomparisons').trans (hbest.symm.trans hfound)), hcomparisons,
      hcomparisons', hasEnough_perm (h.cons control), hwinner]
    exact ⟨rfl, rfl, hperm.map _⟩

/-- Two variants of the same rate and users, and one without users. -/
def tied : List VariantStats :=
  [⟨"second", 1000, 170, "", [], by decide⟩, ⟨"idle", 0, 0, "", [], by decide⟩,
    ⟨"first", 1000, 170, "", [], by decide⟩]

theorem ofVariants_perm_tied : ((baseline :: tied).map VariantStats.id).Nodup ∧ 0 < baseline.users ∧
    tied.Perm tied.reverse ∧
      ofVariants standardNormal (baseline :: tied.reverse) =
          { ofVariants standardNormal (baseline :: tied) with
            comparisons := (active tied.reverse).map (compareVariants standardNormal baseline) } ∧
        (ofVariants standardNormal (baseline :: tied)).comparisons =
            (active tied).map (compareVariants standardNormal baseline) ∧
          (ofVariants standardNormal (baseline :: tied)).comparisons.Perm
            (ofVariants standardNormal (baseline :: tied.reverse)).comparisons := by
  have hids : ((baseline :: tied).map VariantStats.id).Nodup := by decide
  have hcontrol : 0 < baseline.users := by decide
  have hperm : tied.Perm tied.reverse := tied.reverse_perm.symm
  exact ⟨hids, hcontrol, hperm, ofVariants_perm standardNormal_givesShares hids hcontrol hperm⟩

end Order

section Exchange

variable {curve : NormalCurve} {a b : VariantStats}

theorem standardError_comm (a b : VariantStats) : standardError a b = standardError b a := by
  rw [standardError, standardError, Nat.add_comm a.conversions, Nat.add_comm a.users, Double.add_comm]

theorem opposite_zScore (a b : VariantStats) : Double.Opposite (zScore a b) (zScore b a) := by
  have hzero : Double.Opposite 0.0 0.0 := .inr ⟨rfl, .inl (by decide +kernel)⟩
  by_cases hnone : a.users = 0 ∨ b.users = 0
  · rw [zScore, zScore, if_pos hnone, if_pos hnone.symm]
    exact hzero
  rw [zScore, zScore, if_neg hnone, if_neg (mt Or.symm hnone), standardError_comm b a]
  dsimp only
  split_ifs with herror
  · exact hzero
  obtain ⟨ha, hb⟩ := not_or.mp hnone
  have hnan := isNaN_standardError (Nat.pos_of_ne_zero ha) (Nat.pos_of_ne_zero hb)
  rcases Double.sub_swap b.rate a.rate with hswap | ⟨hleft, hright⟩
  · rw [hswap, Double.neg_div]
    exact .inl rfl
  · rw [hleft, hright]
    exact .inr ⟨rfl, Double.zero_div_eq_or hnan (Bool.eq_false_iff.mpr herror)⟩

theorem rawConfidence_exchange (a b : VariantStats) :
    rawConfidence curve (zScore a b) = rawConfidence curve (zScore b a) := by
  rw [rawConfidence, rawConfidence, (opposite_zScore a b).abs]

theorem not_reaches_of_central (hcurve : curve.IsCentral) {z : Float} (h : Within 0 (1 / 4) z.abs) :
    reachesSignificance curve z = false := by
  have honeHalf : OnGrid (3 / 2) := ⟨3, -1, by norm_num, by norm_num, by norm_num, by norm_num⟩
  have hdouble : Within 1 (3 / 2) (2 * curve.cdf z.abs) :=
    (show Within 2 2 2 by decide +kernel).mul (hcurve z h) (by norm_num) (by norm_num) onGrid_one
      honeHalf (by norm_num) (by norm_num)
  have hcentral : Within 0 (1 / 2) (2 * curve.cdf z.abs - 1) :=
    hdouble.sub (show Within 1 1 1 by decide +kernel) onGrid_zero
      (by simpa using onGrid_zpow (-1) (by norm_num) (by norm_num)) (by norm_num) (by norm_num)
  have hraw : Within 0 50 (rawConfidence curve z) :=
    hcentral.mul (show Within 100 100 100 by decide +kernel) (le_refl _) (by norm_num) onGrid_zero
      (onGrid_ofNat 50 (by norm_num)) (by norm_num) (by norm_num)
  have hthreshold : Within 95 95 significanceThreshold := by decide +kernel
  exact decide_eq_false
    (Double.not_le_of_lt hraw.isNaN hthreshold.isNaN (hraw.lt hthreshold (by norm_num)))

theorem pos_of_not_central {z : Float} (hz : z.isNaN = false) (h : ¬Within 0 (1 / 4) z.abs) :
    0 < z.abs ∧ 0 < roundPlaces 3 z.abs := by
  cases hx : Binary.ofFloat? z with
  | none =>
    rcases special_of_ofFloat?_none hx with ⟨hnan, -⟩ | ⟨-, -, rfl⟩ | ⟨-, -, rfl⟩
    · rw [hz] at hnan
      cases hnan
    all_goals decide +kernel
  | some b =>
    have habs := Binary.ofFloat?_abs hx
    generalize hd : ({ b with negative := false } : Binary) = d at habs
    have hsign : d.negative = false := by
      rw [← hd]
    have hexact := Binary.exact_of_positive hsign
    have hquarter : 1 / 4 < d.magnitudeValue := by
      by_contra hle
      exact h ⟨d, habs, hexact.symm ▸ d.magnitudeValue_nonneg, hexact.symm ▸ not_lt.mp hle⟩
    exact ⟨Binary.pos_of_magnitudeValue habs hsign (by linarith),
      roundPlaces_pos (by decide +kernel) habs hsign (by linarith)⟩

/-- A significant statistic keeps its sign when it is rounded. -/
theorem sign_of_reaches (hcurve : curve.IsCentral) {z : Float} (hz : z.isNaN = false)
    (h : reachesSignificance curve z = true) :
    0 < z ∧ 0 < roundPlaces 3 z ∨ z < 0 ∧ roundPlaces 3 z < 0 := by
  have hfar : ¬Within 0 (1 / 4) z.abs := by
    intro hcentral
    rw [not_reaches_of_central hcurve hcentral] at h
    cases h
  obtain ⟨hpos, hround⟩ := pos_of_not_central hz hfar
  rcases Double.abs_eq_or z with habs | habs
  · rw [habs] at hpos hround
    exact .inl ⟨hpos, hround⟩
  · rw [habs] at hpos hround
    rw [roundPlaces_neg] at hround
    exact .inr ⟨Double.neg_pos_iff.mp hpos, Double.neg_pos_iff.mp hround⟩

theorem ofVariants_idle (h : a.users = 0 ∨ b.users = 0) :
    ofVariants curve [a, b] = ⟨false, 0.0, none, 0.0, 0.0, []⟩ := by
  refine ofVariants_of_none ?_
  -- With at most one variant left there is nothing to compare.
  rcases h with h | h
  all_goals
    simp only [comparisonsOf, active, List.filter_cons, List.filter_nil, h, lt_irrefl, decide_false,
      Bool.false_eq_true, if_false]
    split_ifs <;> rfl

theorem ofVariants_pair (ha : 0 < a.users) (hb : 0 < b.users) : ofVariants curve [a, b] =
    { isSignificant := reachesSignificance curve (zScore a b) && hasEnough [a, b]
      confidence := CohortAnalytics.confidence curve (zScore a b)
      winner := if reachesSignificance curve (zScore a b) && hasEnough [a, b] then
        pickWinner? [a, b] [compareVariants curve a b] else none
      z := roundPlaces 3 (zScore a b)
      lift := roundPlaces 1 (CohortAnalytics.lift a b)
      comparisons := [compareVariants curve a b] } := by
  have hactive : active [a, b] = [a, b] := by
    simp [active, ha, hb]
  have hcomparisons := comparisonsOf_eq curve hactive
  have hbest : least? Comparison.before (comparisonsOf curve [a, b]) =
      some (compareVariants curve a b) := by
    rw [hcomparisons]
    rfl
  rw [ofVariants_of_best hbest, hcomparisons]
  rfl

theorem pickWinner?_pair (h : reachesSignificance curve (zScore a b) = true) :
    pickWinner? [a, b] [compareVariants curve a b] =
      some (if 0 < roundPlaces 3 (zScore a b) then b.id else a.id) := by
  have hown : statsOf? [a, b] b.id = some b := by
    simp [statsOf?]
  by_cases hz : 0 < roundPlaces 3 (zScore a b)
  · simp [pickWinner?, compareVariants, h, hz, hown, least?]
  · simp [pickWinner?, compareVariants, h, hz, least?]

theorem reaches_exchange (curve : NormalCurve) (a b : VariantStats) :
    reachesSignificance curve (zScore a b) = reachesSignificance curve (zScore b a) := by
  rw [reachesSignificance, rawConfidence_exchange, reachesSignificance]

theorem pickWinner?_exchange (hcurve : curve.IsCentral)
    (h : reachesSignificance curve (zScore a b) = true) :
    pickWinner? [a, b] [compareVariants curve a b] =
      pickWinner? [b, a] [compareVariants curve b a] := by
  have h' := (reaches_exchange curve a b).symm.trans h
  have hz := isNaN_zScore b a
  have hround := isNaN_roundPlaces 3 hz
  have hsign := sign_of_reaches hcurve hz h'
  rw [pickWinner?_pair h, pickWinner?_pair h']
  rcases opposite_zScore a b with hopposite | ⟨-, hzero⟩
  · rw [hopposite, roundPlaces_neg]
    -- The variant of one order that does better is the control that wins in the other.
    rcases hsign with ⟨-, hpos⟩ | ⟨-, hneg⟩
    · rw [if_pos hpos, if_neg fun hlt =>
        Double.not_lt_zero_of_pos hround hpos (Double.neg_pos_iff.mp hlt)]
    · rw [if_pos (Double.neg_pos_iff.mpr hneg), if_neg fun hpos =>
        Double.not_lt_zero_of_pos hround hpos hneg]
  · -- A statistic of zero has no sign to keep.
    exfalso
    revert hsign
    rcases hzero with hzero | hzero <;> rw [hzero] <;> decide +kernel

def challenger : VariantStats := ⟨"challenger", 1000, 150, "", [], by decide⟩

/-- Of two variants either one may be the control: only the statistic turns its sign, and the gain is
relative to the other. -/
theorem ofVariants_exchange (hcurve : curve.IsCentral) (a b : VariantStats) :
    (ofVariants curve [a, b]).isSignificant = (ofVariants curve [b, a]).isSignificant ∧
      (ofVariants curve [a, b]).confidence = (ofVariants curve [b, a]).confidence ∧
        (ofVariants curve [a, b]).winner = (ofVariants curve [b, a]).winner ∧
          ((ofVariants curve [a, b]).z == -(ofVariants curve [b, a]).z) = true := by
  by_cases hidle : a.users = 0 ∨ b.users = 0
  · rw [ofVariants_idle hidle, ofVariants_idle hidle.symm]
    exact ⟨rfl, rfl, rfl, by decide +kernel⟩
  obtain ⟨ha, hb⟩ := not_or.mp hidle
  rw [ofVariants_pair (Nat.pos_of_ne_zero ha) (Nat.pos_of_ne_zero hb),
    ofVariants_pair (Nat.pos_of_ne_zero hb) (Nat.pos_of_ne_zero ha)]
  have hreaches := reaches_exchange curve a b
  have henough : hasEnough [a, b] = hasEnough [b, a] := hasEnough_perm (.swap b a [])
  have hz := isNaN_roundPlaces 3 (isNaN_zScore a b)
  refine ⟨by rw [hreaches, henough], congrArg (roundPlaces 2) (rawConfidence_exchange a b), ?_,
    ((opposite_zScore a b).roundPlaces 3).beq_neg hz⟩
  dsimp only
  rw [henough, hreaches]
  split_ifs with hsignificant
  · exact pickWinner?_exchange hcurve (hreaches.trans ((Bool.and_eq_true _ _).mp hsignificant).1)
  · rfl

theorem ofVariants_exchange_challenger :
    (ofVariants standardNormal [baseline, challenger]).winner = some "challenger" ∧
      (ofVariants standardNormal [baseline, challenger]).isSignificant =
          (ofVariants standardNormal [challenger, baseline]).isSignificant ∧
        (ofVariants standardNormal [baseline, challenger]).confidence =
            (ofVariants standardNormal [challenger, baseline]).confidence ∧
          (ofVariants standardNormal [baseline, challenger]).winner =
              (ofVariants standardNormal [challenger, baseline]).winner ∧
            ((ofVariants standardNormal [baseline, challenger]).z ==
              -(ofVariants standardNormal [challenger, baseline]).z) = true :=
  ⟨by decide +kernel, ofVariants_exchange standardNormal_isCentral baseline challenger⟩

end Exchange

end Analysis

end CohortAnalytics
