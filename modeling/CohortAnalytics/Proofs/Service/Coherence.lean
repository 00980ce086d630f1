import CohortAnalytics.Proofs.Experiment.Assignment
import CohortAnalytics.Proofs.Service.Failing
import CohortAnalytics.Proofs.Service.VariantAnswers
import CohortAnalytics.Proofs.Service.ExperimentAnswers
import CohortAnalytics.Proofs.Statistics.Bounds

/-!
The report of an experiment on any answer of the store, consistent or not: whenever there is one, its
numbers fit together.
-/

namespace CohortAnalytics

namespace ExperimentReport

/-- A report whose numbers fit together and to the rows that count its variants. Of two rows whose
ids are the same value, the id is that of the first. -/
structure IsCoherent (curve : NormalCurve) (e : Experiment) (rows : List StoreRow)
    (r : ExperimentReport) : Prop where
  ids (id : String) : id ∈ r.variants.map VariantStats.id ↔
    ∃ cell ∈ Json.firsts (rows.map groupCell), cell.isNull = false ∧ cell.display = id
  texts (h : ∀ cell ∈ rows.map groupCell, cell = .null ∨ ∃ s, cell = .text s) (id : String) :
    id ∈ r.variants.map VariantStats.id ↔ .text id ∈ rows.map groupCell
  nodup : (r.variants.map VariantStats.id).Nodup
  order : ∃ others, r.variants.map VariantStats.id = (e.variants.map Variant.id).filter
      (fun id => id ∈ r.variants.map VariantStats.id) ++ others ∧
    others.Pairwise (· < ·) ∧ ∀ id ∈ others, id ∉ e.variants.map Variant.id
  counted : ∀ v ∈ r.variants, ∃ cell ∈ Json.firsts (rows.map groupCell), cell.isNull = false ∧
    cell.display = v.id ∧ ∃ row ∈ rows,
      (cell = groupCell row ∨ cell.same (groupCell row) = true) ∧ v.IsCountOf row
  conversions_le : ∀ v ∈ r.variants, v.conversions ≤ v.users
  rate : ∀ v ∈ r.variants, Within 0 1 v.rate
  totalUsers : r.totalUsers = (r.variants.map VariantStats.users).sum
  goals : ∀ v ∈ r.variants, ∀ g ∈ v.goals, g.conversions ≤ v.users
  winner_iff : r.winner.isSome = true ↔ r.isSignificant = true
  winner : ∀ id, r.winner = some id → id ∈ r.variants.map VariantStats.id
  users : r.isSignificant = true → ∀ v ∈ r.variants, 100 ≤ v.users
  confidence : curve.GivesShares → Within 0 100 r.confidence

section Counts

variable {e : Experiment} {counts : Entries AggregateRow} {goals : List GoalRow}
  {variants : List VariantStats}

theorem ids_of_variantStats
    (h : (variantOrder e counts).mapM (variantStats e counts goals) = .ok variants) :
    variants.map VariantStats.id = variantOrder e counts := by
  have hids := (mapM_ok h).flip.imp fun _ _ hv => (variantStats_inv hv).1
  exact List.forall₂_eq_eq_eq ▸ List.forall₂_map_left_iff.mpr hids

theorem variantOrder_split (e : Experiment) {counts : Entries AggregateRow}
    (hcounts : counts.names.Nodup) : ∃ others, variantOrder e counts =
      (e.variants.map Variant.id).filter (fun id => id ∈ variantOrder e counts) ++ others ∧
      others.Pairwise (· < ·) ∧ ∀ id ∈ others, id ∉ e.variants.map Variant.id := by
  refine ⟨(counts.names.filter fun id => !(e.variants.map Variant.id).contains id).mergeSort
    fun a b => a ≤ b, ?_, pairwise_mergeSort_of_nodup (hcounts.filter _), fun id hid => ?_⟩
  · have hconfigured : (e.variants.map Variant.id).filter (fun id => id ∈ variantOrder e counts) =
        (e.variants.map Variant.id).filter fun id => (counts.find? id).isSome := by
      apply List.filter_congr
      intro id _
      rw [Bool.eq_iff_iff, decide_eq_true_iff, mem_variantOrder, Entries.isSome_find?_iff]
    rw [hconfigured]
    rfl
  · have hout := (List.mem_filter.mp (List.mem_mergeSort.mp hid)).2
    simpa using hout

theorem counted_of_variantStats {q : Query} {experiment goalEvent : String}
    (hwidth : q.grouping.width = 1)
    (hmeasures : q.measures = [.users, .conversions experiment goalEvent]) {rows : List StoreRow}
    {out : AggregateRows} (hout : q.Collects rows out) {id : String}
    (hid : id ∈ (countsByVariant out).names) {v : VariantStats}
    (hv : variantStats e (countsByVariant out) goals id = .ok v) :
    ∃ cell ∈ Json.firsts (rows.map groupCell), cell.isNull = false ∧ cell.display = v.id ∧
      ∃ row ∈ rows, (cell = groupCell row ∨ cell.same (groupCell row) = true) ∧
        v.IsCountOf row := by
  obtain ⟨hname, husers, hconversions, -⟩ := variantStats_inv hv
  obtain ⟨row, hrow⟩ := Option.isSome_iff_exists.mp (Entries.isSome_find?_iff.mpr hid)
  rw [hrow, Option.getD_some] at husers hconversions
  obtain ⟨cell, ⟨key, values⟩, hmem, hsome, hdisplay, rfl⟩ :=
    source_of_mem_counts (Entries.mem_of_find? hrow)
  obtain ⟨source, hsource, hcell, hvalues⟩ := hout.source hmem
  rw [hmeasures] at hvalues
  obtain ⟨users, conversions, hu, hc, rfl⟩ := rowNumbers_variant hvalues
  obtain ⟨hwholeUsers, hwholeConversions⟩ := whole_clampConversions key users conversions
  have hkeys := hout.keys
  rw [hwidth] at hcell hkeys
  refine ⟨cell, ?_, hsome, hdisplay.trans hname.symm, source, hsource, hcell, users, conversions, hu,
    hc, hwholeUsers ▸ husers, hwholeConversions ▸ hconversions⟩
  exact hkeys ▸ List.mem_map_of_mem hmem

end Counts

theorem ofCounts_coherent {config : Config} {curve : NormalCurve} {now : Instant} {e : Experiment}
    (he : e.Accepted) {q : Query} {experiment goalEvent : String} (hwidth : q.grouping.width = 1)
    (hmeasures : q.measures = [.users, .conversions experiment goalEvent]) {rows : List StoreRow}
    {out : AggregateRows} (hout : q.Collects rows out) {goals : List GoalRow} {r : ExperimentReport}
    (h : ofCounts config curve now e (countsByVariant out) goals = .ok r) :
    r.IsCoherent curve e rows := by
  obtain ⟨hvariants, hsummary⟩ := ofCounts_inv h
  have horder := ids_of_variantStats hvariants
  have hcounts : (countsByVariant out).names.Nodup := Entries.nodup_names_ofList
  have hids (id : String) : id ∈ r.variants.map VariantStats.id ↔
      ∃ cell ∈ Json.firsts (rows.map groupCell), cell.isNull = false ∧ cell.display = id := by
    have hkeys := hout.keys
    rw [hwidth] at hkeys
    rw [horder, mem_variantOrder, mem_names_counts, hkeys]
    rfl
  constructor
  case ids => exact hids
  case texts =>
    -- Where all cells are texts or null, a cell is displayed as the text it is.
    intro htexts id
    rw [hids]
    constructor
    · rintro ⟨cell, hcell, hsome, rfl⟩
      have hmem := Json.mem_of_mem_firsts hcell
      obtain rfl | ⟨s, rfl⟩ := htexts cell hmem
      · cases hsome
      · exact hmem
    · exact fun hid => ⟨.text id, Json.text_mem_firsts.mpr hid, rfl, rfl⟩
  case nodup =>
    rw [horder]
    exact nodup_variantOrder he.nodup_variants hcounts
  case order =>
    rw [horder]
    exact variantOrder_split e hcounts
  case counted =>
    intro v hv
    obtain ⟨id, hid, hread⟩ := mapM_ok_mem hvariants hv
    exact counted_of_variantStats hwidth hmeasures hout (mem_variantOrder.mp hid) hread
  case conversions_le => exact fun v _ => v.conversions_le
  case rate => exact fun v _ => v.rate_within
  case totalUsers => exact hsummary.totalUsers
  case goals =>
    intro v hv
    obtain ⟨id, -, hread⟩ := mapM_ok_mem hvariants hv
    exact conversions_of_variantStats hread
  case winner_iff =>
    rw [hsummary.winner, hsummary.isSignificant]
    exact Analysis.winner_isSome_iff r.variants
  case winner =>
    intro id hid
    rw [hsummary.winner] at hid
    exact (Analysis.winner_ofVariants hid).1
  case users =>
    intro hsignificant
    rw [hsummary.isSignificant] at hsignificant
    exact (Analysis.ofVariants_significant hsignificant).2
  case confidence =>
    intro hcurve
    rw [hsummary.confidence]
    exact Analysis.within_confidence_ofVariants hcurve r.variants

/-- Whatever the store answers, a report that comes of it is coherent with the rows of the first
query, which counts the variants. -/
theorem compute_coherent (config : Config) (curve : NormalCurve) (now : Instant) {e : Experiment}
    (he : e.Accepted) (w : Window) (includeGoals : Bool) {σ : Type} (store : Store σ) (s : σ)
    {r : ExperimentReport}
    (h : ((compute config curve now e w includeGoals).run store s).outcome = .finished (.ok r)) :
    ∃ q rows s', [q] <+: ((compute config curve now e w includeGoals).run store s).asked ∧
      q.grouping = .byVariant e.id ∧ store q s = (.rows rows, s') ∧ r.IsCoherent curve e rows := by
  obtain ⟨counts, goals, hcounts, hr⟩ := compute_inv h
  obtain ⟨out, hrun, hcounted⟩ := Inquiry.run_bind_ok hcounts
  obtain rfl := Inquiry.run_pure_ok hcounted
  obtain ⟨start, finish, rows, s', -, hreply, hasked, hout⟩ := aggregate_inv hrun
  refine ⟨_, rows, s', ?_, rfl, hreply, ofCounts_coherent he rfl rfl hout hr⟩
  rw [← hasked]
  exact (Inquiry.asked_bind store _ _ s).trans (Inquiry.asked_bind store _ _ s)

/-- An answer with conversions above the users, a row without a variant, a variant that is not
configured and goals above the users. -/
theorem compute_coherent_inconsistent :
    let rows : List StoreRow := [
      [("group_0", .text "alpha"), ("users", .int 120), ("conversions", .null)],
      [("group_0", .text "control"), ("users", .int 200), ("conversions", .int 300)],
      [("group_0", .null), ("users", .int 7), ("conversions", .int 1)],
      [("group_0", .text "variant_a"), ("users", .text "400.5"), ("conversions", .int 100)]]
    let goals : List StoreRow := [
      [("group_0", .text "control"), ("group_1", .text "goal_checkout"), ("conversions", .int 999)]]
    let window : Window := ⟨some default, some default, 30, by decide, by simp⟩
    let config : Config := { minimumDetectableEffect := 0.0 }
    let run := (compute config standardNormal default checkoutExperiment window true).run
      Store.script [.rows rows, .rows goals]
    checkoutExperiment.Accepted ∧ ∃ r, run.outcome = .finished (.ok r) ∧
      r.variants.map (fun v => (v.id, v.users, v.conversions)) =
        [("control", 200, 200), ("variant_a", 400, 100), ("alpha", 120, 0)] ∧
      r.variants.map (fun v => v.goals.map GoalStats.conversions) = [[200], [], []] ∧
      r.totalUsers = 720 ∧ r.winner = some "control" ∧
      r.IsCoherent standardNormal checkoutExperiment rows ∧ Within 0 100 r.confidence := by
  intro rows goals window config run
  have haccepted : checkoutExperiment.Accepted := by
    rw [Experiment.Accepted]
    decide +kernel
  have hrun : run.outcome.value?.map (fun r =>
      (r.variants.map fun v => (v.id, v.users, v.conversions),
        r.variants.map fun v => v.goals.map GoalStats.conversions, r.totalUsers, r.winner)) =
      some ([("control", 200, 200), ("variant_a", 400, 100), ("alpha", 120, 0)], [[200], [], []], 720,
        some "control") := by
    decide +kernel
  obtain ⟨r, hr, hshown⟩ := Option.map_eq_some_iff.mp hrun
  have hfinished := Outcome.eq_of_value? hr
  obtain ⟨hvariants, hrest⟩ := Prod.mk.inj hshown
  obtain ⟨hgoals, hrest⟩ := Prod.mk.inj hrest
  obtain ⟨htotal, hwinner⟩ := Prod.mk.inj hrest
  obtain ⟨q, answered, s', -, -, hreply, hcoherent⟩ :=
    compute_coherent config standardNormal default haccepted window true Store.script
      [.rows rows, .rows goals] hfinished
  obtain rfl := Reply.rows.inj (Prod.mk.inj hreply).1
  exact ⟨haccepted, r, hfinished, hvariants, hgoals, htotal, hwinner, hcoherent,
    hcoherent.confidence standardNormal_givesShares⟩

end ExperimentReport

end CohortAnalytics
