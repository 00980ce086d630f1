import CohortAnalytics.Proofs.Statistics.Outcome
import CohortAnalytics.Statistics.Verdict

/-!
The numbers that a result shows beside its winner. They are those of the comparison that is first in
rank, and so the winner's own just where no other comparison is ahead of the winner's.
-/

namespace CohortAnalytics

theorem ordersBy_of_givesShares {curve : NormalCurve} (hcurve : curve.GivesShares)
    (control : VariantStats) (others : List VariantStats) :
    OrdersBy Comparison.before Comparison.rank (others.map (compareVariants curve control)) :=
  ordersBy_comparisons fun v _ => (within_confidence (hcurve _ (isNaN_zScore control v))).isNaN

namespace Analysis

/-- The numbers of a result are those of a comparison. -/
structure Shows (result : Analysis) (c : Comparison) : Prop where
  confidence : result.confidence = c.confidence
  z : result.z = c.z
  lift : result.lift = c.lift

section Reported

variable {curve : NormalCurve} {control : VariantStats} {variants others : List VariantStats}

/-- Of the variants that are compared with a control the one whose comparison is first in rank. -/
structure IsFirst (curve : NormalCurve) (control : VariantStats) (others : List VariantStats)
    (first : VariantStats) : Prop where
  mem : first ∈ others
  rank_le : ∀ v ∈ others,
    (compareVariants curve control v).rank ≤ (compareVariants curve control first).rank

theorem sublist_of_active (hactive : active variants = control :: others) :
    (control :: others).Sublist variants :=
  hactive ▸ List.filter_sublist

theorem IsFirst.eq {v w : VariantStats} (hids : (others.map VariantStats.id).Nodup)
    (hv : IsFirst curve control others v) (hw : IsFirst curve control others w) : v = w := by
  have hrank := le_antisymm (hw.rank_le v hv.mem) (hv.rank_le w hw.mem)
  exact List.inj_on_of_nodup_map hids hv.mem hw.mem (Comparison.variant_of_rank hrank)

theorem exists_shows_first (hcurve : curve.GivesShares) (hactive : active variants = control :: others)
    (hne : others ≠ []) : ∃ first, IsFirst curve control others first ∧
      (ofVariants curve variants).Shows (compareVariants curve control first) := by
  cases hbest : least? Comparison.before (others.map (compareVariants curve control)) with
  | none => exact absurd (List.map_eq_nil_iff.mp (least?_eq_none.mp hbest)) hne
  | some best =>
    obtain ⟨first, hfirst, rfl⟩ := List.mem_map.mp (mem_of_least? hbest)
    refine ⟨first, ⟨hfirst, fun v hv => ?_⟩, ?_⟩
    · exact rank_le_of_least? (ordersBy_of_givesShares hcurve control others) hbest
        (List.mem_map_of_mem hv)
    · rw [ofVariants_of_best (by rwa [comparisonsOf_eq curve hactive])]
      exact ⟨rfl, rfl, rfl⟩

theorem mem_shownBetter_of_winner (hids : (variants.map VariantStats.id).Nodup)
    (hactive : active variants = control :: others) {id : String}
    (hwinner : (ofVariants curve variants).winner = some id) (hother : id ≠ control.id) :
    ∃ w ∈ shownBetter curve control others, w.id = id := by
  have hsub : ∀ v ∈ others, v ∈ variants := fun v hv =>
    (sublist_of_active hactive).subset (List.mem_cons_of_mem _ hv)
  cases hbest : least? Comparison.before (others.map (compareVariants curve control)) with
  | none =>
    have hnone := List.map_eq_nil_iff.mp (least?_eq_none.mp hbest)
    rw [ofVariants_of_none (by rw [comparisonsOf_eq curve hactive, hnone]; rfl)] at hwinner
    cases hwinner
  | some best =>
    rw [ofVariants_of_best (by rwa [comparisonsOf_eq curve hactive]), comparisonsOf_eq curve hactive] at hwinner
    dsimp only at hwinner
    split_ifs at hwinner with hsignificant
    rw [pickWinner?_eq hids hsub] at hwinner
    cases hfound : least? VariantStats.before (shownBetter curve control others) with
    | some w =>
      rw [hfound] at hwinner
      exact ⟨w, mem_of_least? hfound, Option.some_inj.mp hwinner⟩
    | none =>
      rw [hfound] at hwinner
      obtain ⟨-, -, hid⟩ := Option.map_eq_some_iff.mp hwinner
      exact absurd hid.symm hother

/-- The numbers beside a winner other than the control are those of the comparison that is first in
rank, and the winner's own just where this is the winner's comparison. -/
theorem shows_first_beside_winner (hcurve : curve.GivesShares)
    (hids : (variants.map VariantStats.id).Nodup)
    (hactive : active variants = control :: others) {id : String}
    (hwinner : (ofVariants curve variants).winner = some id) (hother : id ≠ control.id) :
    ∃ w ∈ others, w.id = id ∧ (compareVariants curve control w).isSignificant = true ∧
      0 < (compareVariants curve control w).z ∧
        ∃ first, IsFirst curve control others first ∧
          (ofVariants curve variants).Shows (compareVariants curve control first) ∧
            (first = w ↔ IsFirst curve control others w) := by
  obtain ⟨w, hbetter, hid⟩ := mem_shownBetter_of_winner hids hactive hwinner hother
  obtain ⟨hw, hshown⟩ := List.mem_filter.mp hbetter
  obtain ⟨hsignificant, hpos⟩ := (Bool.and_eq_true _ _).mp hshown
  obtain ⟨first, hfirst, hshows⟩ := exists_shows_first hcurve hactive (List.ne_nil_of_mem hw)
  have hnodup : (others.map VariantStats.id).Nodup :=
    hids.sublist (((List.sublist_cons_self _ _).trans (sublist_of_active hactive)).map _)
  refine ⟨w, hw, hid, hsignificant, of_decide_eq_true hpos, first, hfirst, hshows, ?_⟩
  exact ⟨fun h => h ▸ hfirst, fun h => hfirst.eq hnodup h⟩

def baseline : VariantStats := ⟨"control", 1000, 100, "", [], by decide⟩

def rivals : List VariantStats :=
  [⟨"small", 1000, 110, "", [], by decide⟩, ⟨"big", 1000, 160, "", [], by decide⟩]

theorem shows_first_beside_winner_big : ((baseline :: rivals).map VariantStats.id).Nodup ∧
    active (baseline :: rivals) = baseline :: rivals ∧
      (ofVariants standardNormal (baseline :: rivals)).winner = some "big" ∧
        ∃ w ∈ rivals, w.id = "big" ∧ (compareVariants standardNormal baseline w).isSignificant = true ∧
          0 < (compareVariants standardNormal baseline w).z ∧
            ∃ first, IsFirst standardNormal baseline rivals first ∧
              (ofVariants standardNormal (baseline :: rivals)).Shows
                (compareVariants standardNormal baseline first) ∧
                  (first = w ↔ IsFirst standardNormal baseline rivals w) := by
  have hids : ((baseline :: rivals).map VariantStats.id).Nodup := by decide
  have hactive : active (baseline :: rivals) = baseline :: rivals := by decide
  have hwinner : (ofVariants standardNormal (baseline :: rivals)).winner = some "big" := by
    decide +kernel
  exact ⟨hids, hactive, hwinner,
    shows_first_beside_winner standardNormal_givesShares hids hactive hwinner (by decide)⟩

/-- The winner does better than the control, and the numbers beside it are those of a variant that
does far worse; so is the confidence that the winner is announced with. -/
theorem shown_beside_other_winner :
    let result := ofVariants standardNormal mixedTrial
    (mixedTrial.map VariantStats.id).Nodup ∧ result.winner = some "better" ∧
      Verdict.winnerFound.describe result.confidence result.winner =
          "Winner found! better with 100% confidence." ∧
        ∃ own ∈ result.comparisons, own.variant = "better" ∧ own.control = "control" ∧
          result.confidence ≠ own.confidence ∧ result.z ≠ own.z ∧ result.lift ≠ own.lift ∧
            Verdict.winnerFound.describe own.confidence (some own.variant) =
              "Winner found! better with 97% confidence." := by
  decide +kernel

end Reported

end Analysis

end CohortAnalytics
