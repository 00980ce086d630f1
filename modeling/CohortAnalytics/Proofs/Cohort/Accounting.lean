import CohortAnalytics.Proofs.Cohort.Compiled
import CohortAnalytics.Proofs.Number.Integers
import Mathlib

/-!
The account of a list of rules: each rule has its condition or its warning, whatever stands around
it. Only an integer that no float is near to takes the whole list with it.
-/

namespace CohortAnalytics

namespace Scalar

/-- An integer that rounds beyond the floats. -/
def BeyondRange : Scalar → Prop
  | .number (.int n) => Binary.overflowBound ≤ n.natAbs
  | _ => False

def number? (s : Scalar) : Option Float := (RuleValue.ofScalar? s).bind RuleValue.asNumber?

theorem ofScalar?_eq_none_iff {s : Scalar} : RuleValue.ofScalar? s = none ↔ s.BeyondRange := by
  cases s with
  | text s => simp [RuleValue.ofScalar?, RuleValue.ofJson?, toJson, BeyondRange]
  | bool b => simp [RuleValue.ofScalar?, RuleValue.ofJson?, toJson, BeyondRange]
  | number n =>
    cases n with
    | float x => simp [RuleValue.ofScalar?, RuleValue.ofJson?, toJson, Number.toFloat?, BeyondRange]
    | int n =>
      simp [RuleValue.ofScalar?, RuleValue.ofJson?, toJson, Number.toFloat?, BeyondRange,
        Binary.ofInt?_eq_none_iff]

end Scalar

namespace FieldTarget

/-- The operators under which the value of a rule on such a field is looked at. -/
def Reads : FieldTarget → RuleOperator → Prop
  | .text _, op => op = .equals ∨ op = .contains
  | .number _, op => op ≠ .contains
  | .deadClick, _ => True

end FieldTarget

namespace Rule

/-- The second value is looked at once the first is known to be a number. -/
def ReadsSecond (r : Rule) (target : FieldTarget) (op : RuleOperator) : Prop :=
  (∃ column, target = .number column) ∧ op = .between ∧ ∃ x, r.value.number? = some x

/-- A rule that is compiled as far as an integer that rounds beyond the floats. -/
def BeyondRange (r : Rule) : Prop :=
  ∃ field op, CohortField.lookup? r.field = some field ∧
    RuleOperator.ofName? r.operator = some op ∧
    (field.target.Reads op ∧ r.value.BeyondRange ∨
      r.ReadsSecond field.target op ∧ ∃ second, r.value2 = some second ∧ second.BeyondRange)

theorem valueOf_beyond_iff {s : Scalar} : valueOf s = .error .beyondRange ↔ s.BeyondRange := by
  rw [← Scalar.ofScalar?_eq_none_iff, valueOf]
  cases RuleValue.ofScalar? s <;> simp

theorem numberOf_ne_beyond (reason : SkipReason) (v : RuleValue) :
    numberOf reason v ≠ .error .beyondRange := by
  unfold numberOf
  split <;> simp

theorem valueOf_numberOf_iff (reason : SkipReason) {s : Scalar} {x : Float} :
    (∃ v, valueOf s = .ok v ∧ numberOf reason v = .ok x) ↔ s.number? = some x := by
  rw [Scalar.number?, Option.bind_eq_some_iff]
  constructor
  · rintro ⟨v, hv, hx⟩
    exact ⟨v, valueOf_ok hv, numberOf_ok hx⟩
  · rintro ⟨v, hv, hx⟩
    exact ⟨v, by rw [valueOf, hv], by rw [numberOf, hx]⟩

theorem textCondition_beyond_iff {column : TextColumn} {op : RuleOperator} {r : Rule} :
    textCondition column op r = .error .beyondRange ↔
      (op = .equals ∨ op = .contains) ∧ r.value.BeyondRange := by
  rw [textCondition, ← valueOf_beyond_iff]
  split_ifs with hequals hcontains
  · simp [map_error_iff, hequals]
  · simp [map_error_iff, hcontains]
  · simp [hequals, hcontains]

theorem betweenTest_beyond_iff {x : Float} {r : Rule} :
    betweenTest x r = .error .beyondRange ↔ ∃ second, r.value2 = some second ∧ second.BeyondRange := by
  rw [betweenTest]
  cases hsecond : r.value2 with
  | none => simp
  | some second =>
    simp [bind_error_iff, map_error_iff, valueOf_beyond_iff, numberOf_ne_beyond]

theorem numberTest_beyond_iff {op : RuleOperator} {r : Rule} :
    numberTest op r = .error .beyondRange ↔
      op ≠ .contains ∧ r.value.BeyondRange ∨
        (op = .between ∧ ∃ x, r.value.number? = some x) ∧
          ∃ second, r.value2 = some second ∧ second.BeyondRange := by
  rw [numberTest]
  cases op with
  | contains => simp [bind_error_iff]
  | equals | greaterThan | lessThan =>
    simp [bind_error_iff, map_error_iff, valueOf_beyond_iff, numberOf_ne_beyond]
  | between =>
    have hnumber := fun x => valueOf_numberOf_iff (.notANumber r.value) (s := r.value) (x := x)
    simp only [reduceCtorEq, if_false, bind_error_iff, valueOf_beyond_iff, numberOf_ne_beyond, ← hnumber,
      betweenTest_beyond_iff, ne_eq, not_false_iff, true_and]
    grind

theorem compile_beyond_iff {r : Rule} : r.compile = .error .beyondRange ↔ r.BeyondRange := by
  rw [compile, BeyondRange]
  cases CohortField.lookup? r.field with
  | none => simp
  | some field =>
    cases RuleOperator.ofName? r.operator with
    | none => simp
    | some op =>
      cases htarget : field.target with
      | deadClick =>
        simp [htarget, FieldTarget.Reads, ReadsSecond, map_error_iff, valueOf_beyond_iff]
      | number column =>
        simp [htarget, FieldTarget.Reads, ReadsSecond, map_error_iff, numberTest_beyond_iff]
      | text column => simp [htarget, FieldTarget.Reads, ReadsSecond, textCondition_beyond_iff]

end Rule

namespace RawRule

/-- Loose data that is not of a rule is skipped before any value is looked at. -/
def BeyondRange : RawRule → Prop
  | .checked r => r.BeyondRange
  | .loose j => ∃ r, Rule.ofJson j = .ok r ∧ r.BeyondRange

theorem compile_beyond_iff {raw : RawRule} : raw.compile = .error .beyondRange ↔ raw.BeyondRange := by
  cases raw with
  | checked r => exact Rule.compile_beyond_iff
  | loose j =>
    rw [compile, BeyondRange]
    cases Rule.ofJson j with
    | error issues => simp
    | ok r => simp [Rule.compile_beyond_iff]

def Gives (raw : RawRule) (index : ℕ) : Condition ⊕ CompileWarning → Prop
  | .inl c => raw.compile = .ok c
  | .inr w => ∃ reason, raw.compile = .error (.skipped reason) ∧ w = ⟨index, raw.field, reason⟩

end RawRule

namespace CompileWarning

def later (count : ℕ) (w : CompileWarning) : CompileWarning := { w with index := w.index + count }

end CompileWarning

namespace Compiled

/-- The same rules with `count` others before them. -/
def later (count : ℕ) (c : Compiled) : Compiled :=
  { c with warnings := c.warnings.map (CompileWarning.later count) }

def append (first second : Compiled) : Compiled :=
  ⟨first.predicate ++ second.predicate, first.warnings ++ second.warnings⟩

/-- Each rule from `index` on has come to one condition or to one warning, and the conditions and
the warnings stand in the order of their rules. -/
def Accounts (index : ℕ) (rules : List RawRule) (compiled : Compiled) : Prop :=
  ∃ outcomes : List (Condition ⊕ CompileWarning),
    List.Forall₂ (fun rule outcome => rule.1.Gives rule.2 outcome) (rules.zipIdx index) outcomes ∧
      compiled.predicate = outcomes.filterMap Sum.getLeft? ∧
      compiled.warnings = outcomes.filterMap Sum.getRight?

variable {index : ℕ} {raw : RawRule} {rules : List RawRule} {compiled compiled' : Compiled}

theorem prependTo_eq_none_iff : compiled.prependTo index raw = none ↔ raw.BeyondRange := by
  rw [← RawRule.compile_beyond_iff, prependTo]
  cases raw.compile with
  | ok c => simp
  | error failure => cases failure <;> simp

theorem ofRulesFrom?_eq_none_iff :
    ofRulesFrom? index rules = none ↔ ∃ raw ∈ rules, raw.BeyondRange := by
  induction rules generalizing index with
  | nil => simp [ofRulesFrom?]
  | cons raw rest ih =>
    rw [ofRulesFrom?, Option.bind_eq_bind, List.exists_mem_cons_iff, ← @ih (index + 1)]
    cases ofRulesFrom? (index + 1) rest with
    | none => simp
    | some compiled => simp [prependTo_eq_none_iff]

theorem Accounts.prependTo (h : compiled.Accounts (index + 1) rules)
    (hprepend : compiled.prependTo index raw = some compiled') :
    compiled'.Accounts index (raw :: rules) := by
  obtain ⟨outcomes, hgives, hpredicate, hwarnings⟩ := h
  unfold Compiled.prependTo at hprepend
  split at hprepend
  case h_1 c hraw =>
    obtain rfl := Option.some.inj hprepend
    exact ⟨.inl c :: outcomes, .cons hraw hgives, by simp [hpredicate], hwarnings⟩
  case h_2 reason hraw =>
    obtain rfl := Option.some.inj hprepend
    exact ⟨.inr ⟨index, raw.field, reason⟩ :: outcomes, .cons ⟨reason, hraw, rfl⟩ hgives,
      hpredicate, by simp [hwarnings]⟩
  case h_3 => cases hprepend

theorem accounts_of_ofRulesFrom? (h : ofRulesFrom? index rules = some compiled) :
    compiled.Accounts index rules := by
  induction rules generalizing index compiled with
  | nil =>
    obtain rfl := Option.some.inj h
    exact ⟨[], .nil, rfl, rfl⟩
  | cons raw rest ih =>
    obtain ⟨tail, htail, hprepend⟩ := Option.bind_eq_some_iff.mp h
    exact (ih htail).prependTo hprepend

theorem prependTo_later (count : ℕ) :
    (compiled.later count).prependTo (index + count) raw =
      (compiled.prependTo index raw).map (later count) := by
  unfold prependTo
  cases raw.compile with
  | ok c => rfl
  | error failure => cases failure <;> rfl

theorem ofRulesFrom?_later (count : ℕ) :
    ofRulesFrom? (index + count) rules = (ofRulesFrom? index rules).map (later count) := by
  induction rules generalizing index with
  | nil => rfl
  | cons raw rest ih =>
    rw [ofRulesFrom?, ofRulesFrom?, Nat.add_right_comm, ih]
    cases ofRulesFrom? (index + 1) rest with
    | none => rfl
    | some compiled => exact prependTo_later count

theorem prependTo_append :
    (compiled.append compiled').prependTo index raw =
      (compiled.prependTo index raw).map (·.append compiled') := by
  unfold prependTo
  cases raw.compile with
  | ok c => rfl
  | error failure => cases failure <;> rfl

/-- Rules after others are compiled as if they stood alone, at later indexes. -/
theorem ofRulesFrom?_append (first second : List RawRule) :
    ofRulesFrom? index (first ++ second) =
      (ofRulesFrom? index first).bind fun a =>
        (ofRulesFrom? (index + first.length) second).map a.append := by
  induction first generalizing index with
  | nil =>
    simp only [List.nil_append, ofRulesFrom?, Option.bind_some, List.length_nil, Nat.add_zero]
    cases ofRulesFrom? index second <;> rfl
  | cons raw rest ih =>
    have hlength : index + (raw :: rest).length = index + 1 + rest.length := by
      rw [List.length_cons]
      omega
    rw [List.cons_append, ofRulesFrom?, ofRulesFrom?, ih, hlength]
    cases ofRulesFrom? (index + 1) rest with
    | none => rfl
    | some a =>
      cases ofRulesFrom? (index + 1 + rest.length) second with
      | none => cases h : a.prependTo index raw <;> simp [h]
      | some b => simp [prependTo_append, Option.map_eq_bind]

theorem ofRules?_eq_none_iff : ofRules? rules = none ↔ ∃ raw ∈ rules, raw.BeyondRange :=
  ofRulesFrom?_eq_none_iff

/-- One rule leaves the others as they are, unless it holds an integer beyond the floats. -/
theorem accounts_or_beyondRange (rules more : List RawRule) :
    (match ofRules? rules with
      | none => ∃ raw ∈ rules, raw.BeyondRange
      | some compiled => (∀ raw ∈ rules, ¬raw.BeyondRange) ∧ compiled.Accounts 0 rules) ∧
    ofRules? (rules ++ more) =
      (ofRules? rules).bind fun first =>
        (ofRules? more).map fun second => first.append (second.later rules.length) := by
  constructor
  · cases h : ofRules? rules with
    | none => exact ofRules?_eq_none_iff.mp h
    | some compiled =>
      refine ⟨fun raw hraw hbeyond => ?_, accounts_of_ofRulesFrom? h⟩
      rw [ofRules?_eq_none_iff.mpr ⟨raw, hraw, hbeyond⟩] at h
      cases h
  · rw [ofRules?, ofRulesFrom?_append, ofRulesFrom?_later]
    simp only [ofRules?, Option.map_map, Function.comp_def]

/-- A threshold of 2 to the 1024th takes the rule on the device with it. -/
theorem abandons_beyond_range :
    let threshold : Json := .object [("field", .text "scroll_depth"), ("operator", .text "greater_than"),
      ("value", .number (.int (2 ^ 1024)))]
    let device : Json := .object [("field", .text "device_type"), ("operator", .text "equals"),
      ("value", .text "mobile")]
    (ofRules? [.loose device]).map Compiled.predicate = some [.textIs .deviceType "mobile"] ∧
      ofRules? [.loose threshold, .loose device] = none := by
  intro threshold device
  refine ⟨by decide +kernel, ofRules?_eq_none_iff.mpr ⟨.loose threshold, by simp, ?_⟩⟩
  refine ⟨⟨"scroll_depth", "greater_than", .number (.int (2 ^ 1024)), none⟩, rfl, ?_⟩
  refine ⟨⟨"scroll_depth", .number .scrollDepth⟩, .greaterThan, rfl, rfl, .inl ⟨nofun, ?_⟩⟩
  change Binary.overflowBound ≤ ((2 : ℤ) ^ 1024).natAbs
  decide +kernel

end Compiled

end CohortAnalytics
