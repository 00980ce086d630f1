import CohortAnalytics.Proofs.Statistics.Ranking

/-!
The outcome of a test of variants: when it is significant, which confidence it shows and which variant
wins. Little is used of the normal curve, for the statistics of the test only.
-/

namespace CohortAnalytics

/-- On some statistics the confidence that is shown and the significance do not fall as the magnitude
grows, and a significant statistic keeps its sign when it is rounded. -/
structure NormalCurve.Orders (curve : NormalCurve) (scores : List Float) : Prop where
  confidence : ∀ z ∈ scores, ∀ w ∈ scores, z.abs ≤ w.abs → confidence curve z ≤ confidence curve w
  reaches : ∀ z ∈ scores, ∀ w ∈ scores, z.abs ≤ w.abs →
    reachesSignificance curve z = true → reachesSignificance curve w = true
  sign : ∀ z ∈ scores, reachesSignificance curve z = true →
    0 < z ∧ 0 < roundPlaces 3 z ∨ z < 0 ∧ roundPlaces 3 z < 0

variable {curve : NormalCurve} {control v : VariantStats} {variants others : List VariantStats}
  {best : Comparison}

theorem isProper_compareVariants (h : (confidence curve (zScore control v)).isNaN = false) :
    (compareVariants curve control v).IsProper :=
  ⟨h, isNaN_roundPlaces 3 (isNaN_zScore control v)⟩

theorem ordersBy_comparisons
    (h : ∀ v ∈ others, (confidence curve (zScore control v)).isNaN = false) :
    OrdersBy Comparison.before Comparison.rank (others.map (compareVariants curve control)) := by
  apply Comparison.ordersBy_before
  intro c hc
  obtain ⟨v, hv, rfl⟩ := List.mem_map.mp hc
  exact isProper_compareVariants (h v hv)

section Best

variable (hcurve : curve.Orders (others.map (zScore control)))
  (hbest : least? Comparison.before (others.map (compareVariants curve control)) = some best)

include hcurve

theorem confidence_le_of_abs {w : VariantStats} (hv : v ∈ others) (hw : w ∈ others)
    (h : (zScore control v).abs ≤ (zScore control w).abs) :
    confidence curve (zScore control v) ≤ confidence curve (zScore control w) :=
  hcurve.confidence _ (List.mem_map_of_mem hv) _ (List.mem_map_of_mem hw) h

theorem isNaN_confidence (hv : v ∈ others) :
    (confidence curve (zScore control v)).isNaN = false := by
  have hz := (Double.isNaN_abs _).trans (isNaN_zScore control v)
  exact Double.isNaN_of_le
    (confidence_le_of_abs hcurve hv hv ((Double.le_iff_position hz hz).mpr le_rfl))

include hbest

theorem confidence_le_best (hv : v ∈ others) :
    confidence curve (zScore control v) ≤ best.confidence := by
  have hrank := rank_le_of_least? (ordersBy_comparisons fun _ => isNaN_confidence hcurve) hbest
    (List.mem_map_of_mem hv)
  obtain ⟨w, hw, rfl⟩ := List.mem_map.mp (mem_of_least? hbest)
  exact (Double.le_iff_position (isNaN_confidence hcurve hv) (isNaN_confidence hcurve hw)).mpr
    (Comparison.confidence_of_rank hrank)

/-- Where any comparison is significant the first in rank is, although it is found by the confidence
that is shown. -/
theorem isSignificant_best (hv : v ∈ others)
    (hreaches : reachesSignificance curve (zScore control v) = true) : best.isSignificant = true := by
  have hrank := rank_le_of_least? (ordersBy_comparisons fun _ => isNaN_confidence hcurve) hbest
    (List.mem_map_of_mem hv)
  obtain ⟨w, hw, rfl⟩ := List.mem_map.mp (mem_of_least? hbest)
  have habs (u : VariantStats) : (zScore control u).abs.isNaN = false :=
    (Double.isNaN_abs _).trans (isNaN_zScore control u)
  rcases le_total (Number.position (.float (zScore control v).abs))
    (Number.position (.float (zScore control w).abs)) with hle | hle
  · exact hcurve.reaches _ (List.mem_map_of_mem hv) _ (List.mem_map_of_mem hw)
      ((Double.le_iff_position (habs v) (habs w)).mpr hle) hreaches
  · -- Then both show the same confidence, and significance decides between them.
    have hshown :=
      confidence_le_of_abs hcurve hw hv ((Double.le_iff_position (habs w) (habs v)).mpr hle)
    exact Comparison.significant_of_rank hrank
      ((Double.le_iff_position (isNaN_confidence hcurve hw) (isNaN_confidence hcurve hv)).mp hshown)
      hreaches

end Best

namespace Analysis

/-- The statistics of the variants against the control, not rounded. -/
def scores (variants : List VariantStats) : List Float :=
  match active variants with
  | [] => []
  | control :: others => others.map (zScore control)

def hasEnough (variants : List VariantStats) : Bool :=
  variants.all fun v => minimumObservations ≤ v.users

theorem hasEnough_iff : hasEnough variants = true ↔ ∀ v ∈ variants, minimumObservations ≤ v.users := by
  simp [hasEnough]

theorem active_eq_self (h : ∀ v ∈ variants, minimumObservations ≤ v.users) :
    active variants = variants := by
  refine List.filter_eq_self.mpr fun v hv => decide_eq_true ?_
  exact lt_of_lt_of_le (by decide) (h v hv)

theorem ofVariants_of_best (h : least? Comparison.before (comparisonsOf curve variants) = some best) :
    ofVariants curve variants =
      { isSignificant := best.isSignificant && hasEnough variants
        confidence := best.confidence
        winner := if best.isSignificant && hasEnough variants then
          pickWinner? variants (comparisonsOf curve variants) else none
        z := best.z
        lift := best.lift
        comparisons := comparisonsOf curve variants } := by
  rw [ofVariants]
  dsimp only
  rw [h]
  rfl

theorem ofVariants_of_none (h : comparisonsOf curve variants = []) :
    ofVariants curve variants = ⟨false, 0.0, none, 0.0, 0.0, []⟩ := by
  rw [ofVariants, h]
  rfl

section Winner

theorem statsOf?_own (hids : (variants.map VariantStats.id).Nodup) (hv : v ∈ variants) :
    statsOf? variants v.id = some v := by
  cases hfound : statsOf? variants v.id with
  | none =>
    have hnone := List.find?_eq_none.mp hfound v (List.mem_reverse.mpr hv)
    exact absurd BEq.rfl hnone
  | some w =>
    have hid : w.id = v.id := by simpa using List.find?_some hfound
    rw [List.inj_on_of_nodup_map hids (id_of_statsOf? hfound) hv hid]

/-- The variants whose comparison shows them to do significantly better than the control. -/
def shownBetter (curve : NormalCurve) (control : VariantStats) (others : List VariantStats) :
    List VariantStats :=
  others.filter fun v =>
    (compareVariants curve control v).isSignificant && 0 < (compareVariants curve control v).z

theorem statsOf?_shownBetter (hids : (variants.map VariantStats.id).Nodup)
    (hsub : ∀ v ∈ others, v ∈ variants) :
    (((others.map (compareVariants curve control)).filter Comparison.isSignificant).filter
      fun c => 0 < c.z).filterMap (fun c => statsOf? variants c.variant) =
        shownBetter curve control others := by
  have hfound : ∀ v ∈ shownBetter curve control others,
      statsOf? variants (compareVariants curve control v).variant = some v :=
    fun v hv => statsOf?_own hids (hsub v (List.mem_filter.mp hv).1)
  have hfilter : (fun c => decide (0 < c.z) && c.isSignificant) ∘ compareVariants curve control =
      fun v => (compareVariants curve control v).isSignificant &&
        decide (0 < (compareVariants curve control v).z) :=
    funext fun v => Bool.and_comm _ _
  rw [List.filter_filter, List.filter_map, List.filterMap_map, hfilter, ← shownBetter]
  exact (List.filterMap_congr hfound).trans List.filterMap_some

theorem pickWinner?_eq (hids : (variants.map VariantStats.id).Nodup)
    (hsub : ∀ v ∈ others, v ∈ variants) :
    pickWinner? variants (others.map (compareVariants curve control)) =
      match least? VariantStats.before (shownBetter curve control others) with
      | some winner => some winner.id
      | none => (others.find? fun v => reachesSignificance curve (zScore control v)).map
          fun _ => control.id := by
  rw [pickWinner?, statsOf?_shownBetter hids hsub]
  cases least? VariantStats.before (shownBetter curve control others) with
  | some winner => rfl
  | none =>
    rw [List.head?_filter, List.find?_map, Option.map_map]
    rfl

/-- The variants that do significantly better than the control. -/
def better (curve : NormalCurve) (control : VariantStats) (others : List VariantStats) :
    List VariantStats :=
  others.filter fun v => reachesSignificance curve (zScore control v) && 0 < zScore control v

theorem shownBetter_eq (hcurve : curve.Orders (others.map (zScore control))) :
    shownBetter curve control others = better curve control others := by
  refine List.filter_congr fun v hv => ?_
  cases hreaches : reachesSignificance curve (zScore control v) with
  | false => simp only [compareVariants, hreaches, Bool.false_and]
  | true =>
    have hz := isNaN_zScore control v
    have hsign := hcurve.sign _ (List.mem_map_of_mem hv) hreaches
    have hshown : 0 < roundPlaces 3 (zScore control v) ↔ 0 < zScore control v := by
      rcases hsign with ⟨hpos, hpos'⟩ | ⟨hneg, hneg'⟩
      · exact iff_of_true hpos' hpos
      · exact iff_of_false (fun h => Double.not_lt_zero_of_pos (isNaN_roundPlaces 3 hz) h hneg')
          (fun h => Double.not_lt_zero_of_pos hz h hneg)
    simp only [compareVariants, hreaches, hshown]

/-- The winner among a control and the variants that are compared with it: of those that do
significantly better the first by rate, then by users, then by the smaller id, or else the control,
which then does better in every significant comparison. -/
inductive Wins (curve : NormalCurve) (control : VariantStats) (others : List VariantStats) :
    VariantStats → Prop
  | variant {winner : VariantStats} (hmem : winner ∈ better curve control others)
      (hfirst : ∀ v ∈ better curve control others, v.rank ≤ winner.rank) :
      Wins curve control others winner
  | control (hnone : better curve control others = [])
      (hfavoured : ∀ v ∈ others, reachesSignificance curve (zScore control v) = true →
        zScore control v < 0) :
      Wins curve control others control

theorem exists_wins (hids : (variants.map VariantStats.id).Nodup) (hsub : ∀ v ∈ others, v ∈ variants)
    (hcurve : curve.Orders (others.map (zScore control))) (hv : v ∈ others)
    (hreaches : reachesSignificance curve (zScore control v) = true) :
    ∃ winner, pickWinner? variants (others.map (compareVariants curve control)) = some winner.id ∧
      Wins curve control others winner := by
  rw [pickWinner?_eq hids hsub, shownBetter_eq hcurve]
  cases hbest : least? VariantStats.before (better curve control others) with
  | some winner =>
    exact ⟨winner, rfl, .variant (mem_of_least? hbest) fun v hv =>
      rank_le_of_least? (VariantStats.ordersBy_before _) hbest hv⟩
  | none =>
    have hnone := least?_eq_none.mp hbest
    refine ⟨control, ?_, .control hnone fun w hw hw' => ?_⟩
    · cases hfound : others.find? fun v => reachesSignificance curve (zScore control v) with
      | none => exact absurd hreaches (List.find?_eq_none.mp hfound v hv)
      | some w => rfl
    · rcases hcurve.sign _ (List.mem_map_of_mem hw) hw' with ⟨hpos, -⟩ | ⟨hneg, -⟩
      · have hmem : w ∈ better curve control others :=
          List.mem_filter.mpr ⟨hw, by rw [hw', decide_eq_true hpos]; rfl⟩
        rw [hnone] at hmem
        cases hmem
      · exact hneg

end Winner

/-- What a result says about the variants that it was found for. -/
structure IsOutcome (curve : NormalCurve) (variants : List VariantStats) (result : Analysis) :
    Prop where
  significant : result.isSignificant = true ↔ 2 ≤ variants.length ∧
    (∀ v ∈ variants, minimumObservations ≤ v.users) ∧
      ∃ z ∈ scores variants, reachesSignificance curve z = true
  confidence_ge : ∀ z ∈ scores variants, CohortAnalytics.confidence curve z ≤ result.confidence
  confidence_mem : if scores variants = [] then result.confidence = 0.0 else
    ∃ z ∈ scores variants, result.confidence = CohortAnalytics.confidence curve z
  winner : result.isSignificant = true → ∃ control others winner, variants = control :: others ∧
    result.winner = some winner.id ∧ Wins curve control others winner

section Outcome

theorem scores_eq (h : active variants = control :: others) :
    scores variants = others.map (zScore control) := by
  rw [scores, h]

theorem comparisonsOf_eq (curve : NormalCurve) (h : active variants = control :: others) :
    comparisonsOf curve variants = others.map (compareVariants curve control) := by
  rw [comparisonsOf, h]

theorem isOutcome_of_none (hscores : scores variants = [])
    (hnone : comparisonsOf curve variants = []) :
    IsOutcome curve variants (ofVariants curve variants) := by
  rw [ofVariants_of_none hnone]
  constructor
  · simp [hscores]
  · simp [hscores]
  · rw [if_pos hscores]
  · intro h
    cases h

theorem isOutcome_of_best (hids : (variants.map VariantStats.id).Nodup)
    (hcurve : curve.Orders (scores variants)) (hactive : active variants = control :: others)
    (hbest : least? Comparison.before (others.map (compareVariants curve control)) = some best) :
    IsOutcome curve variants (ofVariants curve variants) := by
  have hscores := scores_eq hactive
  have hcomparisons := comparisonsOf_eq curve hactive
  rw [hscores] at hcurve
  obtain ⟨w, hw, hown⟩ := List.mem_map.mp (mem_of_least? hbest)
  rw [ofVariants_of_best (by rwa [hcomparisons]), hcomparisons]
  constructor
  · rw [Bool.and_eq_true, hasEnough_iff, hscores]
    constructor
    · rintro ⟨hsignificant, henough⟩
      have hlength := List.length_filter_le (fun v : VariantStats => 0 < v.users) variants
      have hothers := List.length_pos_of_mem hw
      rw [← active, hactive, List.length_cons] at hlength
      rw [← hown] at hsignificant
      exact ⟨by omega, henough, _, List.mem_map_of_mem hw, hsignificant⟩
    · rintro ⟨-, henough, z, hz, hreaches⟩
      obtain ⟨v, hv, rfl⟩ := List.mem_map.mp hz
      exact ⟨isSignificant_best hcurve hbest hv hreaches, henough⟩
  · intro z hz
    rw [hscores] at hz
    obtain ⟨v, hv, rfl⟩ := List.mem_map.mp hz
    exact confidence_le_best hcurve hbest hv
  · rw [if_neg (by rw [hscores]; exact List.ne_nil_of_mem (List.mem_map_of_mem hw)), hscores, ← hown]
    exact ⟨_, List.mem_map_of_mem hw, rfl⟩
  · intro h
    obtain ⟨hsignificant, henough⟩ := (Bool.and_eq_true _ _).mp h
    have hall := active_eq_self (hasEnough_iff.mp henough)
    rw [hactive] at hall
    rw [if_pos h]
    rw [← hown] at hsignificant
    obtain ⟨winner, hwinner, hwins⟩ := exists_wins hids
      (fun v hv => hall ▸ List.mem_cons_of_mem _ hv) hcurve hw hsignificant
    exact ⟨control, others, winner, hall.symm, hwinner, hwins⟩

/-- A result is significant just where it has enough data and any comparison is, shows the greatest
confidence and has the winner that it should. -/
theorem ofVariants_isOutcome (hids : (variants.map VariantStats.id).Nodup)
    (hcurve : curve.Orders (scores variants)) :
    IsOutcome curve variants (ofVariants curve variants) := by
  cases hactive : active variants with
  | nil => exact isOutcome_of_none (by rw [scores, hactive]) (by rw [comparisonsOf, hactive])
  | cons control others =>
    cases hbest : least? Comparison.before (others.map (compareVariants curve control)) with
    | none =>
      have hnone := List.map_eq_nil_iff.mp (least?_eq_none.mp hbest)
      exact isOutcome_of_none (by rw [scores_eq hactive, hnone]; rfl)
        (by rw [comparisonsOf_eq curve hactive, hnone]; rfl)
    | some best => exact isOutcome_of_best hids hcurve hactive hbest

/-- A control, a variant that does far worse and one that does a little better. -/
def mixedTrial : List VariantStats :=
  [⟨"control", 100, 50, "", [], by decide⟩, ⟨"worse", 100, 20, "", [], by decide⟩,
    ⟨"better", 100, 65, "", [], by decide⟩]

theorem ofVariants_isOutcome_mixed : (mixedTrial.map VariantStats.id).Nodup ∧
    standardNormal.Orders (scores mixedTrial) ∧
      (ofVariants standardNormal mixedTrial).isSignificant = true ∧
        IsOutcome standardNormal mixedTrial (ofVariants standardNormal mixedTrial) := by
  have hids : (mixedTrial.map VariantStats.id).Nodup := by decide
  have hcurve : standardNormal.Orders (scores mixedTrial) :=
    ⟨by decide +kernel, by decide +kernel, by decide +kernel⟩
  exact ⟨hids, hcurve, by decide +kernel, ofVariants_isOutcome hids hcurve⟩

end Outcome

end Analysis

end CohortAnalytics
