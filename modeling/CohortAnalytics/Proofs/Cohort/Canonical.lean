import CohortAnalytics.Cohort.Definition
import CohortAnalytics.Proofs.Json.Canonical

/-!
The canonical text of a cohort's rules is theirs alone: no other rules have it, whether they differ
in their order, in a member or in the type of a value.
-/

namespace CohortAnalytics

namespace Scalar

theorem toJson_inj {v w : Scalar} (h : v.toJson = w.toJson) : v = w := by
  cases v <;> cases w <;> simp_all [toJson]

theorem toJson_ne_null (v : Scalar) : v.toJson ≠ .null := by
  cases v <;> simp [toJson]

theorem sorted_toJson (v : Scalar) : v.toJson.sorted = v.toJson := by
  cases v <;> simp [toJson, Json.sorted]

end Scalar

namespace Rule

theorem value2_inj {v w : Option Scalar}
    (h : (v.map Scalar.toJson).getD .null = (w.map Scalar.toJson).getD .null) : v = w := by
  cases v with
  | none =>
    cases w with
    | none => rfl
    | some w => exact absurd h.symm w.toJson_ne_null
  | some v =>
    cases w with
    | none => exact absurd h v.toJson_ne_null
    | some w => rw [Scalar.toJson_inj h]

theorem toJson_injective : Function.Injective Rule.toJson := by
  rintro ⟨field, operator, value, value2⟩ ⟨field', operator', value', value2'⟩ h
  simp only [toJson, Json.object.injEq, List.cons.injEq, Prod.mk.injEq, Json.text.injEq, true_and,
    and_true] at h
  obtain ⟨rfl, rfl, hvalue, hvalue2⟩ := h
  rw [Scalar.toJson_inj hvalue, value2_inj hvalue2]

theorem sorted_toJson (r : Rule) : r.toJson.sorted = r.toJson := by
  have hvalue2 : ((r.value2.map Scalar.toJson).getD .null).sorted =
      (r.value2.map Scalar.toJson).getD .null := by
    cases r.value2 with
    | none => simp [Json.sorted]
    | some v => exact v.sorted_toJson
  have hmembers : Json.sortedMembers [("field", .text r.field), ("operator", .text r.operator),
      ("value", r.value.toJson), ("value2", (r.value2.map Scalar.toJson).getD .null)] =
        [("field", .text r.field), ("operator", .text r.operator), ("value", r.value.toJson),
          ("value2", (r.value2.map Scalar.toJson).getD .null)] := by
    simp only [Json.sortedMembers_eq_map, List.map_cons, List.map_nil, Json.sorted, hvalue2,
      Scalar.sorted_toJson]
  rw [toJson, Json.sorted, hmembers, Json.sortMembers_of_names]
  change ["field", "operator", "value", "value2"].Pairwise (· ≤ ·)
  decide

end Rule

namespace Cohort

theorem sorted_rulesJson (c : Cohort) : c.rulesJson.sorted = c.rulesJson := by
  rw [rulesJson, Json.sorted, Json.sortedItems_eq_map, List.map_map]
  exact congrArg Json.array (List.map_congr_left fun r _ => r.sorted_toJson)

theorem canonical_rulesJson (c : Cohort) :
    c.rulesJson.canonical = String.ofList (Json.write {} c.rulesJson) := by
  rw [Json.canonical, sorted_rulesJson]

/-- Rules have one canonical text exactly when they are the same. -/
theorem canonical_rulesJson_inj {c d : Cohort} :
    c.rulesJson.canonical = d.rulesJson.canonical ↔ c.rules = d.rules := by
  rw [Json.canonical_inj_of_sorted c.sorted_rulesJson d.sorted_rulesJson, rulesJson, rulesJson,
    Json.array.injEq]
  exact (List.map_injective_iff.mpr Rule.toJson_injective).eq_iff

/-- Among these cohorts, rules with different texts have different hashes. -/
def HashesTell (cs : List Cohort) : Prop := ∀ c ∈ cs, ∀ d ∈ cs, c.rulesHash = d.rulesHash →
  c.rulesJson.canonical = d.rulesJson.canonical

instance (cs : List Cohort) : Decidable (HashesTell cs) :=
  inferInstanceAs (Decidable (∀ c ∈ cs, ∀ d ∈ cs, c.rulesHash = d.rulesHash →
    c.rulesJson.canonical = d.rulesJson.canonical))

theorem HashesTell.rules_eq {cs : List Cohort} (h : HashesTell cs) {c d : Cohort} (hc : c ∈ cs)
    (hd : d ∈ cs) (hhash : c.rulesHash = d.rulesHash) : c.rules = d.rules :=
  canonical_rulesJson_inj.mp (h c hc d hd hhash)

theorem hashesTell_of_nodup {cs ds : List Cohort} (hsub : cs ⊆ ds)
    (h : (ds.map rulesHash).Nodup) : HashesTell cs := by
  intro c hc d hd hhash
  rw [List.inj_on_of_nodup_map h (hsub hc) (hsub hd) hhash]

end Cohort

end CohortAnalytics
