import CohortAnalytics.Cohort.Compile
import CohortAnalytics.Proofs.Results
import Mathlib

/-!
What compiling gives: the shape of the condition of one rule, and which rules of a list give a
condition and which a warning.
-/

namespace CohortAnalytics

namespace RuleValue

theorem asNumber?_finite {v : RuleValue} {x : Float} (h : v.asNumber? = some x) :
    ∃ b, Binary.ofFloat? x = some b := by
  have hfinite {y : Float} (hy : finite? y = some x) : ∃ b, Binary.ofFloat? x = some b := by
    unfold finite? at hy
    split_ifs at hy with hsome
    obtain rfl := Option.some.inj hy
    exact Option.isSome_iff_exists.mp hsome
  cases v with
  | number y => exact hfinite h
  | text s =>
    obtain ⟨y, -, hy⟩ := Option.bind_eq_some_iff.mp h
    exact hfinite hy

end RuleValue

namespace Rule

theorem valueOf_ok {s : Scalar} {v : RuleValue} (h : valueOf s = .ok v) :
    RuleValue.ofScalar? s = some v := by
  unfold valueOf at h
  split at h
  · rw [← Except.ok.inj h]
    assumption
  · cases h

theorem numberOf_ok {reason : SkipReason} {v : RuleValue} {x : Float}
    (h : numberOf reason v = .ok x) : v.asNumber? = some x := by
  unfold numberOf at h
  split at h
  · rw [← Except.ok.inj h]
    assumption
  · cases h

theorem textCondition_ok {column : TextColumn} {op : RuleOperator} {r : Rule} {c : Condition}
    (h : textCondition column op r = .ok c) :
    ∃ v, RuleValue.ofScalar? r.value = some v ∧
      (op = .equals ∧ c = .textIs column v.asText ∨
        op = .contains ∧ c = .textLike column (Like.containing v.asText)) := by
  unfold textCondition at h
  split_ifs at h with hequals hcontains
  · obtain ⟨v, hv, hc⟩ := bind_ok h
    exact ⟨v, valueOf_ok hv, .inl ⟨hequals, (Except.ok.inj hc).symm⟩⟩
  · obtain ⟨v, hv, hc⟩ := bind_ok h
    exact ⟨v, valueOf_ok hv, .inr ⟨hcontains, (Except.ok.inj hc).symm⟩⟩

theorem betweenTest_ok {x : Float} {r : Rule} {test : NumberTest} (h : betweenTest x r = .ok test) :
    ∃ second v y, r.value2 = some second ∧ RuleValue.ofScalar? second = some v ∧
      v.asNumber? = some y ∧ test = if y < x then .between y x else .between x y := by
  unfold betweenTest at h
  split at h
  · cases h
  · rename_i second hsecond
    obtain ⟨v, hv, h⟩ := bind_ok h
    obtain ⟨y, hy, h⟩ := bind_ok h
    exact ⟨second, v, y, hsecond, valueOf_ok hv, numberOf_ok hy, (Except.ok.inj h).symm⟩

theorem numberTest_ok {op : RuleOperator} {r : Rule} {test : NumberTest}
    (h : numberTest op r = .ok test) :
    ∃ v x, RuleValue.ofScalar? r.value = some v ∧ v.asNumber? = some x ∧
      (op = .equals ∧ test = .equals x ∨ op = .greaterThan ∧ test = .above x ∨
        op = .lessThan ∧ test = .below x ∨ op = .between ∧ betweenTest x r = .ok test) := by
  unfold numberTest at h
  by_cases hcontains : op = .contains
  · rw [if_pos hcontains] at h
    cases h
  rw [if_neg hcontains] at h
  obtain ⟨-, -, h⟩ := bind_ok h
  obtain ⟨v, hv, h⟩ := bind_ok h
  obtain ⟨x, hx, h⟩ := bind_ok h
  refine ⟨v, x, valueOf_ok hv, numberOf_ok hx, ?_⟩
  cases op with
  | equals => exact .inl ⟨rfl, (Except.ok.inj h).symm⟩
  | greaterThan => exact .inr (.inl ⟨rfl, (Except.ok.inj h).symm⟩)
  | lessThan => exact .inr (.inr (.inl ⟨rfl, (Except.ok.inj h).symm⟩))
  | between => exact .inr (.inr (.inr ⟨rfl, h⟩))
  | contains => exact absurd rfl hcontains

theorem compile_ok {r : Rule} {c : Condition} (h : r.compile = .ok c) :
    ∃ field op, CohortField.lookup? r.field = some field ∧
      RuleOperator.ofName? r.operator = some op ∧
      match field.target with
      | .deadClick => ∃ v, RuleValue.ofScalar? r.value = some v ∧ c = .deadClickIs (flagOf v)
      | .number column => ∃ test, numberTest op r = .ok test ∧ c = .number column test
      | .text column => textCondition column op r = .ok c := by
  unfold compile at h
  split at h
  · cases h
  rename_i field hfield
  split at h
  · cases h
  rename_i op hop
  refine ⟨field, op, hfield, hop, ?_⟩
  cases htarget : field.target with
  | deadClick =>
    rw [htarget] at h
    obtain ⟨v, hv, h⟩ := bind_ok h
    exact ⟨v, valueOf_ok hv, (Except.ok.inj h).symm⟩
  | number column =>
    rw [htarget] at h
    obtain ⟨test, htest, h⟩ := bind_ok h
    exact ⟨test, htest, (Except.ok.inj h).symm⟩
  | text column =>
    rw [htarget] at h
    exact h

end Rule

namespace RawRule

def condition? (raw : RawRule) : Option Condition := raw.compile.toOption

def warning? (raw : RawRule) (index : Nat) : Option CompileWarning :=
  match raw.compile with
  | .error (.skipped reason) => some ⟨index, raw.field, reason⟩
  | _ => none

theorem condition?_eq_some {raw : RawRule} {c : Condition} :
    raw.condition? = some c ↔ raw.compile = .ok c := by
  unfold condition?
  cases raw.compile <;> simp [Except.toOption]

theorem warning?_eq_some {raw : RawRule} {i : Nat} {w : CompileWarning} :
    raw.warning? i = some w ↔ ∃ reason, raw.compile = .error (.skipped reason) ∧
      w = ⟨i, raw.field, reason⟩ := by
  unfold warning?
  split <;> rename_i hraw
  · simp [hraw, eq_comm]
  · simp only [reduceCtorEq, false_iff, not_exists, not_and]
    intro reason hreason
    exact absurd hreason (hraw reason)

end RawRule

namespace Compiled

/-- Every rule gives its condition or its warning, in the order of the rules. -/
theorem ofRulesFrom?_eq {rules : List RawRule} {index : Nat} {compiled : Compiled}
    (h : ofRulesFrom? index rules = some compiled) :
    (∀ raw ∈ rules, raw.compile ≠ .error .beyondRange) ∧
      compiled.predicate = rules.filterMap RawRule.condition? ∧
      compiled.warnings = (rules.zipIdx index).filterMap fun (raw, i) => raw.warning? i := by
  induction rules generalizing index compiled with
  | nil =>
    obtain rfl := Option.some.inj h
    exact ⟨by simp, rfl, rfl⟩
  | cons raw rest ih =>
    obtain ⟨tail, htail, hprepend⟩ := Option.bind_eq_some_iff.mp h
    obtain ⟨hrange, hpredicate, hwarnings⟩ := ih htail
    rw [List.zipIdx_cons, List.forall_mem_cons]
    unfold prependTo at hprepend
    split at hprepend <;> rename_i hraw
    · obtain rfl := Option.some.inj hprepend
      refine ⟨⟨by simp [hraw], hrange⟩, ?_, ?_⟩
      · simp [RawRule.condition?, hraw, hpredicate, Except.toOption]
      · simp [RawRule.warning?, hraw, hwarnings]
    · obtain rfl := Option.some.inj hprepend
      refine ⟨⟨by simp [hraw], hrange⟩, ?_, ?_⟩
      · simp [RawRule.condition?, hraw, hpredicate, Except.toOption]
      · simp [RawRule.warning?, hraw, hwarnings]
    · cases hprepend

variable {rules : List RawRule} {compiled : Compiled}

theorem mem_predicate_iff (h : ofRules? rules = some compiled) {c : Condition} :
    c ∈ compiled.predicate ↔ ∃ raw ∈ rules, raw.compile = .ok c := by
  obtain ⟨-, hpredicate, -⟩ := ofRulesFrom?_eq h
  simp only [hpredicate, List.mem_filterMap, RawRule.condition?_eq_some]

theorem mem_warnings_iff (h : ofRules? rules = some compiled) {w : CompileWarning} :
    w ∈ compiled.warnings ↔ ∃ raw reason, rules[w.index]? = some raw ∧
      raw.compile = .error (.skipped reason) ∧ w = ⟨w.index, raw.field, reason⟩ := by
  obtain ⟨-, -, hwarnings⟩ := ofRulesFrom?_eq h
  rw [hwarnings, List.mem_filterMap]
  constructor
  · rintro ⟨⟨raw, i⟩, hmem, hw⟩
    obtain ⟨reason, hreason, rfl⟩ := RawRule.warning?_eq_some.mp hw
    exact ⟨raw, reason, List.mk_mem_zipIdx_iff_getElem?.mp hmem, hreason, rfl⟩
  · rintro ⟨raw, reason, hraw, hreason, hw⟩
    exact ⟨(raw, w.index), List.mk_mem_zipIdx_iff_getElem?.mpr hraw,
      RawRule.warning?_eq_some.mpr ⟨reason, hreason, hw⟩⟩

theorem unwarned_iff (h : ofRules? rules = some compiled) {i : Nat} {raw : RawRule}
    (hraw : rules[i]? = some raw) :
    (∀ w ∈ compiled.warnings, w.index ≠ i) ↔ ∃ c, raw.compile = .ok c := by
  constructor
  · intro hunwarned
    cases hcompile : raw.compile with
    | ok c => exact ⟨c, rfl⟩
    | error failure =>
      cases failure with
      | beyondRange =>
        obtain ⟨hrange, -, -⟩ := ofRulesFrom?_eq h
        exact absurd hcompile (hrange raw (List.mem_of_getElem? hraw))
      | skipped reason =>
        have hwarning : ⟨i, raw.field, reason⟩ ∈ compiled.warnings :=
          (mem_warnings_iff h).mpr ⟨raw, reason, hraw, hcompile, rfl⟩
        exact absurd rfl (hunwarned _ hwarning)
  · rintro ⟨c, hc⟩ w hw rfl
    obtain ⟨other, reason, hother, hreason, -⟩ := (mem_warnings_iff h).mp hw
    rw [hraw] at hother
    obtain rfl := Option.some.inj hother
    rw [hc] at hreason
    cases hreason

end Compiled

end CohortAnalytics
