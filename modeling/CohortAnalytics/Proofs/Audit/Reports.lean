import CohortAnalytics.Audit.Basic
import CohortAnalytics.Proofs.Json.Order
import CohortAnalytics.Proofs.Service.ExperimentAnswers
import CohortAnalytics.Service.Export

/-!
What the audit finds in reports whose numbers fit together: only that the store has failed, and of
an experiment also that it has too few variants or no verdict. A failed comparison, which the
document shows without its failure, is found by its missing rows.
-/

namespace CohortAnalytics

namespace Audit

theorem isPercentage_number (n : Number) :
    isPercentage (.number n) = .ok ((Number.int 0).le n && n.le (.int 100)) := by
  rw [isPercentage, Json.isAtMost_number]
  simp only [bind, Except.bind]
  split_ifs with h
  · rw [Json.isAtMost_number, h, Bool.true_and]
  · rw [Bool.not_eq_true] at h
    rw [h]
    rfl

theorem isOutOfRange_number (n : Number) :
    isOutOfRange (.number n) = .ok (n.lt (.int 0) || (Number.int 100).lt n) := by
  rw [isOutOfRange, Json.isBelow_number]
  simp only [bind, Except.bind]
  split_ifs with h
  · rw [h]
    rfl
  · rw [Bool.not_eq_true] at h
    rw [Json.isBelow_number, h, Bool.false_or]

theorem metrics_ok {m : CohortMetrics} (h : m.IsConsistent) (name : Json) :
    metrics name (CohortReport.metricsJson m) = .ok [] := by
  obtain ⟨b, hb, hlow, hhigh⟩ := h.rate
  have hsessions : (CohortReport.metricsJson m).member "sessions" = .ok (.int m.sessions) := rfl
  have hclicking : (CohortReport.metricsJson m).member "sessions_with_clicks" =
      .ok (.int m.sessionsWithClicks) := rfl
  have hrate : (CohortReport.metricsJson m).member "click_rate" = .ok (.float m.clickRate) := rfl
  have hge : (Number.int 0).le (.float m.clickRate) = true :=
    (Number.int_le_float 0 hb).mpr (by exact_mod_cast hlow)
  have hle : (Number.float m.clickRate).le (.int 100) = true :=
    (Number.float_le_int hb 100).mpr (by exact_mod_cast hhigh)
  rw [metrics, hsessions, hclicking, hrate]
  simp only [bind, Except.bind, Json.isBelow_number, isPercentage_number, Number.lt_int,
    decide_eq_false h.clicking_le.not_gt, hge, hle]
  rfl

/-- The audit of a cohort finds only that its store has failed. -/
theorem cohort_ok {r : CohortReport} (h : r.metrics.IsConsistent) :
    cohort r.toJson = .ok (note r.queryFailed (.cohortFailed (.text r.cohort.id))) := by
  change (do
    let found ← metrics (.text r.cohort.id) (CohortReport.metricsJson r.metrics)
    return note (!!r.queryFailed) (.cohortFailed (.text r.cohort.id)) ++ found) = _
  rw [metrics_ok h, Bool.not_not]
  exact congrArg Except.ok (List.append_nil _)

theorem comparisonRow_ok {r : ComparisonRow} (h : r.IsConsistent) :
    comparisonRow (CohortComparison.rowJson r) = .ok [] := by
  have hsessions : (CohortComparison.rowJson r).member "sessions" = .ok (.int r.sessions) := rfl
  have hevents : (CohortComparison.rowJson r).member "events" = .ok (.int r.events) := rfl
  rw [comparisonRow, hsessions, hevents]
  simp only [bind, Except.bind, Json.isBelow_number, Number.lt_int, decide_eq_false h.not_gt,
    Bool.false_eq_true, if_false]
  exact ite_self _

theorem variant_ok {v : VariantStats} (hpos : 0 < v.users) (name : Json) :
    variant name (ExperimentReport.variantJson v) = .ok [] := by
  have husers : (ExperimentReport.variantJson v).member "users" = .ok (.int v.users) := rfl
  have hconversions : (ExperimentReport.variantJson v).member "conversions" =
      .ok (.int v.conversions) := rfl
  have hnone : ¬ (v.users : ℤ) ≤ 0 := by omega
  have hmore : ¬ (v.users : ℤ) < v.conversions := by exact_mod_cast v.conversions_le.not_gt
  rw [variant, husers, hconversions]
  simp only [bind, Except.bind, Json.isBelow_number, Json.isAtMost_number, Number.lt_int,
    Number.le_int, decide_eq_false hnone, decide_eq_false hmore]
  rfl

theorem each_ok {α : Type} {check : Json → Findings} {f : α → Json} {found : α → List Finding}
    {xs : List α} (h : ∀ x ∈ xs, check (f x) = .ok (found x)) :
    each check (xs.map f) = .ok (xs.flatMap found) := by
  induction xs with
  | nil => rfl
  | cons x xs ih =>
    rw [List.map_cons, each, h x (by simp), ih fun y hy => h y (List.mem_cons_of_mem _ hy)]
    rfl

theorem sum_users (variants : List VariantStats) :
    Json.sum (variants.map fun v => .int v.users) = .ok (.int (ExperimentReport.sumUsers variants)) := by
  rw [Json.sum, ← zero_add (ExperimentReport.sumUsers variants : ℤ)]
  generalize (0 : ℤ) = total
  induction variants generalizing total with
  | nil =>
    simp [ExperimentReport.sumUsers]
    rfl
  | cons v rest ih =>
    rw [List.map_cons, List.foldlM_cons]
    change List.foldlM _ (Number.int (total + v.users)) _ = _
    rw [ih]
    simp [ExperimentReport.sumUsers, add_assoc]

theorem isOutOfRange_ok {x : Float} (h : IsPercentage x) : isOutOfRange (.float x) = .ok false := by
  rw [isOutOfRange_number]
  rcases h with hnan | ⟨b, hb, hlow, hhigh⟩
  · rw [eq_of_isNaN hnan]
    decide +kernel
  · have hge : (Number.float x).lt (.int 0) = false := by
      rw [Bool.eq_false_iff, Ne, Number.float_lt_int hb]
      exact_mod_cast hlow.not_gt
    have hle : (Number.int 100).lt (.float x) = false := by
      rw [Bool.eq_false_iff, Ne, Number.int_lt_float 100 hb]
      exact_mod_cast hhigh.not_gt
    rw [hge, hle]
    rfl

theorem winner_ok {r : ExperimentReport} (h : r.IsConsistent) (name : Json) :
    winner name r.toJson (r.variants.map ExperimentReport.variantJson) = .ok [] := by
  have hids : (r.variants.map ExperimentReport.variantJson).mapM variantId =
      .ok (r.variants.map fun v => .text v.id) := mapM_map_ok fun _ _ => rfl
  have hwon : r.toJson.member "winner_variant_id" =
      .ok (ExperimentReport.optional .text r.winner) := rfl
  have hsignificant : r.toJson.member "is_significant" = .ok (.bool r.isSignificant) := rfl
  rw [winner, hwon]
  cases hid : r.winner with
  | none => rfl
  | some id =>
    obtain ⟨hmem, hsig⟩ := h.winner id hid
    have hknown : (Json.text id).isAmong (r.variants.map fun v => .text v.id) = .ok true := by
      have hsimple : (r.variants.map fun v => Json.text v.id).all Json.isSimple = true := by
        simp [Json.isSimple]
      have hsame : (r.variants.map fun v => Json.text v.id).any (Json.same (.text id)) = true := by
        obtain ⟨v, hv, rfl⟩ := List.mem_map.mp hmem
        exact List.any_eq_true.mpr ⟨_, List.mem_map_of_mem hv, by simp [Json.same]⟩
      rw [Json.isAmong, hsimple, hsame]
      rfl
    simp only [bind, Except.bind, ExperimentReport.optional, hids, hknown, hsignificant, hsig]
    rfl

theorem isVerdict_iff (status : String) :
    isVerdict (.text status) = true ↔ ∃ v : Verdict, status = v.name := by
  rw [isVerdict, List.any_eq_true]
  constructor
  · rintro ⟨v, -, hv⟩
    exact ⟨v, by simpa [Json.same] using hv⟩
  · rintro ⟨v, rfl⟩
    exact ⟨v, by cases v <;> simp [Verdict.all], by simp [Json.same]⟩

/-- An experiment's store has failed, it has too few variants, or it has no verdict. -/
def experimentFindings (r : ExperimentReport) : List Finding :=
  note r.queryFailed (.experimentFailed (.text r.id)) ++
    note (r.variants.length < 2) (.tooFewVariants (.text r.id)) ++
    note (!isVerdict (.text r.statusMessage)) (.unknownStatus (.text r.id) (.text r.statusMessage))

theorem experiment_ok {r : ExperimentReport} (h : r.IsConsistent) :
    experiment r.toJson = .ok (experimentFindings r) := by
  have hgiven : (if (Json.array (r.variants.map ExperimentReport.variantJson)).isNothing
      then Json.array [] else .array (r.variants.map ExperimentReport.variantJson)) =
        .array (r.variants.map ExperimentReport.variantJson) := by
    cases r.variants <;> rfl
  have hcounts : each (variant (.text r.id)) (r.variants.map ExperimentReport.variantJson) =
      .ok (r.variants.flatMap fun _ => []) :=
    each_ok fun v hv => variant_ok (h.users_pos v hv) _
  have husers : (r.variants.map ExperimentReport.variantJson).mapM (Json.member "users") =
      .ok (r.variants.map fun v => .int v.users) := mapM_map_ok fun _ _ => rfl
  have hfits : Json.same (.int (ExperimentReport.sumUsers r.variants)) (.int r.totalUsers) = true := by
    simp [Json.same, Json.number?, Number.eqv, Number.order?, h.totalUsers_eq]
  have hfailed : r.toJson.member "query_failed" = .ok (.bool r.queryFailed) := rfl
  have hvariants : r.toJson.memberOr "variants" .null =
      .ok (.array (r.variants.map ExperimentReport.variantJson)) := rfl
  have htotal : r.toJson.member "total_users" = .ok (.int r.totalUsers) := rfl
  have hconfidence : r.toJson.member "confidence_level" = .ok (.float r.confidence) := rfl
  have hstatus : r.toJson.member "status_message" = .ok (.text r.statusMessage) := rfl
  change results (.text r.id) r.toJson = _
  rw [results, hfailed, hvariants, hconfidence, htotal, hstatus]
  simp only [bind, Except.bind, hgiven, hcounts, husers, sum_users, hfits,
    isOutOfRange_ok h.confidence, winner_ok h, Json.size, Json.parts, Except.map, List.length_map]
  simp [experimentFindings, note, Json.isNothing, pure, Except.pure]

theorem note_eq_nil {b : Bool} {f : Finding} : note b f = [] ↔ b = false := by
  cases b <;> simp [note]

theorem experimentFindings_eq_nil {r : ExperimentReport} :
    experimentFindings r = [] ↔ r.IsComplete ∧ 2 ≤ r.variants.length := by
  simp only [experimentFindings, List.append_eq_nil_iff, note_eq_nil, Bool.not_eq_false',
    isVerdict_iff, decide_eq_false_iff_not, not_lt]
  constructor
  · rintro ⟨⟨hanswered, htwo⟩, hverdict⟩
    exact ⟨⟨hanswered, hverdict⟩, htwo⟩
  · rintro ⟨⟨hanswered, hverdict⟩, htwo⟩
    exact ⟨⟨hanswered, htwo⟩, hverdict⟩

section Document

variable {cohorts : List CohortReport} {comparison : CohortComparison}
  {experiments : List ExperimentReport}

def documentFindings (cohorts : List CohortReport) (comparison : CohortComparison)
    (experiments : List ExperimentReport) : List Finding :=
  note cohorts.isEmpty .noCohorts ++
    (cohorts.flatMap fun r => note r.queryFailed (.cohortFailed (.text r.cohort.id))) ++
    note (comparison.rows.length != cohorts.length)
      (.rowCount comparison.rows.length cohorts.length) ++
    note experiments.isEmpty .noExperiments ++ experiments.flatMap experimentFindings

theorem audit_toJson (hcohorts : ∀ r ∈ cohorts, r.metrics.IsConsistent)
    (hrows : ∀ r ∈ comparison.rows, r.IsConsistent)
    (hexperiments : ∀ r ∈ experiments, r.IsConsistent) :
    audit (Export.toJson ⟨cohorts.map .cohort, [.comparison comparison],
      experiments.map .experiment⟩) = .ok (documentFindings cohorts comparison experiments) := by
  have hparts : (cohorts.map Report.cohort).map Report.toJson = cohorts.map CohortReport.toJson := by
    rw [List.map_map]
    rfl
  have hresults : (experiments.map Report.experiment).map Report.toJson =
      experiments.map ExperimentReport.toJson := by
    rw [List.map_map]
    rfl
  have hinCohorts : each cohort (cohorts.map CohortReport.toJson) =
      .ok (cohorts.flatMap fun r => note r.queryFailed (.cohortFailed (.text r.cohort.id))) :=
    each_ok fun r hr => cohort_ok (hcohorts r hr)
  have hinRows : each comparisonRow (comparison.rows.map CohortComparison.rowJson) =
      .ok (comparison.rows.flatMap fun _ => []) :=
    each_ok fun r hr => comparisonRow_ok (hrows r hr)
  have hinExperiments : each experiment (experiments.map ExperimentReport.toJson) =
      .ok (experiments.flatMap experimentFindings) :=
    each_ok fun r hr => experiment_ok (hexperiments r hr)
  change body (Export.toJson _) = _
  rw [Export.toJson, hparts, hresults]
  generalize hdata : Json.object _ = data
  have hcohortsPart : data.member "cohorts" = .ok (.array (cohorts.map CohortReport.toJson)) := by
    rw [← hdata]
    rfl
  have hrowsPart : data.member "comparison" = .ok comparison.rowsJson := by
    rw [← hdata]
    rfl
  have hexperimentsPart : data.member "experiments" =
      .ok (.array (experiments.map ExperimentReport.toJson)) := by
    rw [← hdata]
    rfl
  rw [body, hcohortsPart, hrowsPart, hexperimentsPart]
  simp [bind, Except.bind, Json.parts, Json.size, Except.map, hinCohorts, hinRows, hinExperiments,
    CohortComparison.rowsJson, Json.isNothing, documentFindings, pure, Except.pure]

theorem documentFindings_eq_nil : documentFindings cohorts comparison experiments = [] ↔
    (cohorts ≠ [] ∧ ∀ r ∈ cohorts, r.queryFailed = false) ∧
      comparison.rows.length = cohorts.length ∧
      experiments ≠ [] ∧ ∀ r ∈ experiments, r.IsComplete ∧ 2 ≤ r.variants.length := by
  simp only [documentFindings, List.append_eq_nil_iff, note_eq_nil, List.flatMap_eq_nil_iff,
    List.isEmpty_eq_false_iff, experimentFindings_eq_nil, bne_eq_false_iff_eq]
  tauto

end Document

end Audit

end CohortAnalytics
