import CohortAnalytics.Proofs.Service.VariantAnswers
import CohortAnalytics.Proofs.Statistics.Bounds

/-!
The report of an experiment on a table: it is always found, its variants are those that the events
pair with the experiment, and its numbers fit together.
-/

namespace CohortAnalytics

open Inquiry

/-- Settings under which every report can be computed. -/
structure Config.IsSound (c : Config) : Prop where
  pages : Query.isLimit c.topPagesLimit = true
  baseline : Within (2 ^ (-63 : ℤ)) 1 c.fallbackBaselineRate
  effect : Within (2 ^ (-4 : ℤ)) 1 c.minimumDetectableEffect

theorem Config.isSound_default : Config.IsSound {} :=
  ⟨rfl, by decide +kernel, by decide +kernel⟩

/-- Numbers that fit together, also where there are none. -/
structure ExperimentReport.IsConsistent (r : ExperimentReport) : Prop where
  users_pos : ∀ v ∈ r.variants, 0 < v.users
  totalUsers_eq : r.totalUsers = sumUsers r.variants
  confidence : IsPercentage r.confidence
  winner : ∀ id, r.winner = some id →
    id ∈ r.variants.map VariantStats.id ∧ r.isSignificant = true

/-- A report that the store has answered and that comes to a verdict. -/
structure ExperimentReport.IsComplete (r : ExperimentReport) : Prop where
  answered : r.queryFailed = false
  verdict : ∃ v : Verdict, r.statusMessage = v.name

namespace ExperimentReport

theorem revenuePer_ok (revenue : Option Float) {count : ℕ} (hcount : count < 2 ^ 63) :
    ∃ x, revenuePer revenue count = .ok x := by
  have hbound : (count : ℚ) / (1 : ℕ) ≤ 2 ^ (63 : ℤ) := by
    rw [Nat.cast_one, div_one]
    exact_mod_cast hcount.le
  obtain ⟨n, hn, -⟩ :=
    Binary.ofRatio?_faithful one_pos (onGrid_zpow 63 (by norm_num) (by norm_num)) hbound
  have hint : Binary.ofInt? count = some n := by exact_mod_cast hn
  cases revenue with
  | none => exact ⟨none, rfl⟩
  | some x =>
    rw [revenuePer]
    split_ifs
    · exact ⟨none, rfl⟩
    · rw [hint]
      exact ⟨_, rfl⟩

theorem goalTypeOf_ok (goal : Option Goal) {type : Json}
    (htype : type = .null ∨ ∃ s, type = .text s) : ∃ s, goalTypeOf goal type = .ok s := by
  rw [goalTypeOf]
  split_ifs with hnothing
  · exact ⟨_, rfl⟩
  · rcases htype with rfl | ⟨s, rfl⟩
    · exact absurd rfl hnothing
    · exact ⟨s, rfl⟩

theorem goalStats_ok (e : Experiment) {users : ℕ} (hpos : 0 < users) (hlt : users < 2 ^ 63)
    {g : GoalRow} (hg : g.IsReadable) : ∃ s, goalStats e users g = .ok s := by
  obtain ⟨id, hid⟩ := hg.goal
  obtain ⟨counted, hcounted⟩ := hg.conversions
  obtain ⟨x, hx⟩ := hg.revenue
  obtain ⟨type, htype⟩ := goalTypeOf_ok (e.goal? id) hg.type
  have hrevenue : revenueOf g.row = .ok (if x == 0 then none else some x) := by
    rw [revenueOf, hx]
    rfl
  have hmin : min (counted : ℤ) users = (min counted users : ℕ) := (Nat.cast_min ..).symm
  have hle : min counted users ≤ users := min_le_right _ _
  have hshare : ((min counted users : ℕ) : ℚ) / users ≤ 1 := by
    rw [div_le_one (by exact_mod_cast hpos)]
    exact_mod_cast hle
  obtain ⟨rate, hrate, -⟩ := quotient_ok hpos onGrid_one hshare
  obtain ⟨average, haverage⟩ :=
    revenuePer_ok (if x == 0 then none else some x) (hle.trans_lt hlt)
  obtain ⟨visitor, hvisitor⟩ := revenuePer_ok (if x == 0 then none else some x) hlt
  rw [goalStats, hid]
  simp only [textOf, bind, Except.bind, hcounted, hmin, hrevenue, htype,
    if_neg (Int.natCast_ne_zero.mpr hpos.ne'), hrate, haverage, hvisitor]
  exact ⟨_, rfl⟩

theorem variantStats_ok (e : Experiment) {counts : Entries AggregateRow} {goals : List GoalRow}
    (hgoals : ∀ g ∈ goals, g.IsReadable) {variant : String} {row : AggregateRow}
    (hfound : counts.find? variant = some row) {users conversions : ℕ}
    (hrow : row.IsVariantCount users conversions) :
    ∃ v, variantStats e counts goals variant = .ok v ∧ v.id = variant ∧ v.users = users := by
  have hread : ∀ g ∈ goals.filter (isOfVariant variant),
      ∃ s, goalStats e users g = .ok s ∧ True := by
    intro g hg
    obtain ⟨s, hs⟩ := goalStats_ok e hrow.users_pos hrow.users_lt (hgoals g (List.mem_filter.mp hg).1)
    exact ⟨s, hs, trivial⟩
  obtain ⟨stats, hstats, -⟩ := mapM_succeeds hread
  have hmake : VariantStats.make variant users conversions (e.variantName variant) stats =
      .ok ⟨variant, users, conversions, e.variantName variant, stats, hrow.conversions_le⟩ := by
    rw [VariantStats.make, if_neg (by omega)]
    exact dif_pos hrow.conversions_le
  rw [variantStats, hfound, Option.getD_some, hrow.users_eq, hrow.conversions_eq]
  simp only [bind, Except.bind, hstats, hmake]
  exact ⟨_, rfl, rfl, rfl⟩

section VariantOrder

variable {e : Experiment} {counts : Entries AggregateRow}

theorem mem_variantOrder {id : String} : id ∈ variantOrder e counts ↔ id ∈ counts.names := by
  rw [variantOrder, List.mem_append, List.mem_mergeSort, List.mem_filter, List.mem_filter,
    Entries.isSome_find?_iff]
  by_cases h : id ∈ e.variants.map Variant.id <;> simp [h]

theorem nodup_variantOrder (he : (e.variants.map Variant.id).Nodup) (hcounts : counts.names.Nodup) :
    (variantOrder e counts).Nodup := by
  rw [variantOrder, List.nodup_append]
  refine ⟨he.filter _, (List.mergeSort_perm _ _).nodup_iff.mpr (hcounts.filter _), ?_⟩
  rintro id hconfigured _ hother rfl
  have hout := (List.mem_filter.mp (List.mem_mergeSort.mp hother)).2
  simp [(List.mem_filter.mp hconfigured).1] at hout

end VariantOrder

theorem within_rate {v : VariantStats} (hpos : 0 < v.users) (hlt : v.users < 2 ^ 63)
    (hrate : 0 < v.rate) : Within (2 ^ (-63 : ℤ)) 1 v.rate := by
  have heq : v.rate = Binary.ofQuotient false v.conversions v.users := by
    rw [VariantStats.rate, if_neg hpos.ne']
  have hfaithful := Binary.ofQuotient_faithful false v.conversions hpos
  rw [if_neg Bool.false_ne_true, ← heq] at hfaithful
  have husers : (0 : ℚ) < v.users := by exact_mod_cast hpos
  have hle : (v.conversions : ℚ) / v.users ≤ 1 := by
    rw [div_le_one husers]
    exact_mod_cast v.conversions_le
  rcases Nat.eq_zero_or_pos v.conversions with hzero | hconversions
  · rw [hzero, Nat.cast_zero, zero_div] at hfaithful
    obtain ⟨b, hb, -, hnone⟩ := hfaithful 0 0 onGrid_zero onGrid_zero le_rfl le_rfl
    obtain ⟨d, hd, hzero, -⟩ : Within 0 0 0 := by decide +kernel
    exact absurd ((hzero.trans_lt ((lt_iff_exact hd hb).mp hrate)).trans_le hnone) (lt_irrefl _)
  · apply hfaithful _ _ (onGrid_zpow _ (by norm_num) (by norm_num)) onGrid_one _ hle
    have hone : (1 : ℚ) ≤ v.conversions := by exact_mod_cast hconversions
    have hmost : (v.users : ℚ) ≤ 2 ^ 63 := by exact_mod_cast hlt.le
    rw [le_div_iff₀ husers, zpow_neg, inv_mul_le_iff₀ (by positivity)]
    calc (v.users : ℚ) ≤ 2 ^ (63 : ℤ) := by exact_mod_cast hmost
      _ ≤ 2 ^ (63 : ℤ) * v.conversions := le_mul_of_one_le_right (by positivity) hone

theorem within_baselineRate {config : Config} (hconfig : config.IsSound)
    {variants : List VariantStats} (hvariants : ∀ v ∈ variants, v.users < 2 ^ 63) :
    Within (2 ^ (-63 : ℤ)) 1 (baselineRate config variants) := by
  rw [baselineRate]
  split
  case h_1 v hv =>
    split_ifs with husable
    · exact within_rate husable.1 (hvariants v (List.mem_of_head? hv)) husable.2.1
    · exact hconfig.baseline
  case h_2 => exact hconfig.baseline

theorem sampleSizeFor_ok {config : Config} (hconfig : config.IsSound) {curve : NormalCurve}
    (hcurve : curve.IsLawful) {variants : List VariantStats}
    (hvariants : ∀ v ∈ variants, v.users < 2 ^ 63) :
    ∃ size, sampleSizeFor config curve variants = .ok size := by
  obtain ⟨size, hsize⟩ :=
    minimumSampleSize_ok hcurve (within_baselineRate hconfig hvariants) hconfig.effect
  refine ⟨size, ?_⟩
  rw [sampleSizeFor, hsize]

/-- Counts of different variants lead to a report with these variants. -/
theorem ofCounts_ok {config : Config} (hconfig : config.IsSound) {curve : NormalCurve}
    (hcurve : curve.IsLawful) {now : Instant} {e : Experiment} {days : ℤ}
    (hdays : daysSince e.startedAt now = .ok days) {counts : Entries AggregateRow}
    (hcounts : ∀ variant row, (variant, row) ∈ counts →
      ∃ users conversions, row.IsVariantCount users conversions)
    {goals : List GoalRow} (hgoals : ∀ g ∈ goals, g.IsReadable) :
    ∃ r, ofCounts config curve now e counts goals = .ok r ∧ r.IsConsistent ∧ r.IsComplete ∧
      r.variants.map VariantStats.id = variantOrder e counts := by
  have hread : ∀ id ∈ variantOrder e counts, ∃ v, variantStats e counts goals id = .ok v ∧
      (0 < v.users ∧ v.users < 2 ^ 63) ∧ v.id = id := by
    intro id hid
    obtain ⟨row, hrow⟩ :=
      Option.isSome_iff_exists.mp (Entries.isSome_find?_iff.mpr (mem_variantOrder.mp hid))
    obtain ⟨users, conversions, hcount⟩ := hcounts id row (Entries.mem_of_find? hrow)
    obtain ⟨v, hv, hname, husers⟩ := variantStats_ok e hgoals hrow hcount
    exact ⟨v, hv, husers ▸ ⟨hcount.users_pos, hcount.users_lt⟩, hname⟩
  obtain ⟨variants, hvariants, hall⟩ := mapM_succeeds hread
  obtain ⟨hmembers, hids⟩ := (List.forall₂_and_left _ _).mp hall.flip
  obtain ⟨size, hsize⟩ := sampleSizeFor_ok hconfig hcurve fun v hv => (hmembers v hv).2
  rw [ofCounts, hvariants]
  simp only [bind, Except.bind, hsize, hdays]
  refine ⟨_, rfl, ⟨fun v hv => (hmembers v hv).1, rfl,
    Analysis.isPercentage_ofVariants hcurve variants,
    fun _ hwinner => Analysis.winner_ofVariants hwinner⟩, ⟨rfl, _, rfl⟩, ?_⟩
  exact List.forall₂_eq_eq_eq ▸ List.forall₂_map_left_iff.mpr hids

/-- A report on a table has the variants that an event pairs with the experiment, each once. -/
theorem compute_gives {config : Config} (hconfig : config.IsSound) {curve : NormalCurve}
    (hcurve : curve.IsLawful) {now : Instant} {e : Experiment}
    (he : (e.variants.map Variant.id).Nodup) {days : ℤ} (hdays : daysSince e.startedAt now = .ok days)
    {w : Window} {start finish : Instant} (hwindow : w.resolve? now = some (start, finish))
    {t : EventTable} (ht : t.IsCountable) (includeGoals : Bool) :
    ∃ r, (compute config curve now e w includeGoals).Gives t r ∧ r.IsConsistent ∧ r.IsComplete ∧
      (r.variants.map VariantStats.id).Nodup ∧
      ∀ variant, variant ∈ r.variants.map VariantStats.id ↔ t.Pairs e start finish variant := by
  obtain ⟨counts, hcounted, hnames, hpairs, hcounts⟩ := variantCounts_pairs hwindow ht
  obtain ⟨goals, hreadable, hgiven⟩ : ∃ goals : List GoalRow, (∀ g ∈ goals, g.IsReadable) ∧
      ∀ r, ofCounts config curve now e counts goals = .ok r →
        (compute config curve now e w includeGoals).Gives t r := by
    cases includeGoals with
    | true =>
      let scope : Scope := { site := e.site, window := w, now }
      have hscope : scope.window.resolve? scope.now = some (start, finish) := hwindow
      obtain ⟨goals, hgoals, hreadable⟩ := goalBreakdown_gives e.id hscope t
      exact ⟨goals, hreadable, fun r hr => hcounted.bind (hgoals.bind (gives_ofExcept hr))⟩
    | false =>
      exact ⟨[], by simp, fun r hr => hcounted.bind ((gives_pure []).bind (gives_ofExcept hr))⟩
  obtain ⟨r, hr, hconsistent, hcomplete, hids⟩ :=
    ofCounts_ok hconfig hcurve hdays hcounts hreadable
  refine ⟨r, hgiven r hr, hconsistent, hcomplete, ?_, fun variant => ?_⟩
  · rw [hids]
    exact nodup_variantOrder he hnames
  · rw [hids, mem_variantOrder]
    exact hpairs variant

end ExperimentReport

end CohortAnalytics
