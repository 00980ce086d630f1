import CohortAnalytics.Proofs.Cohort.Bound
import CohortAnalytics.Proofs.Cohort.Compiled
import CohortAnalytics.Proofs.Cohort.Like
import CohortAnalytics.Proofs.Number.Compare

/-!
The events that a compiled predicate selects are those of which its rules hold, and what a rule says
of an event is stated without patterns, floats or the text of the predicate.
-/

namespace CohortAnalytics

namespace RuleValue

def exactValue? (v : RuleValue) : Option ℚ :=
  v.asNumber?.bind fun x => (Binary.ofFloat? x).map Binary.exact

theorem exactValue?_of_asNumber? {v : RuleValue} {x : Float} (h : v.asNumber? = some x) :
    ∃ b, Binary.ofFloat? x = some b ∧ v.exactValue? = some b.exact := by
  obtain ⟨b, hb⟩ := asNumber?_finite h
  exact ⟨b, hb, by rw [exactValue?, h, Option.bind_some, hb, Option.map_some]⟩

end RuleValue

namespace FieldTarget

/-- What a rule on this target asks of an event. A column without a value never satisfies it. -/
def Asks (op : RuleOperator) (v : RuleValue) (second : Option RuleValue) (e : StoredEvent) :
    FieldTarget → Prop
  | .text column =>
    ∃ text, column.value? e = some text ∧
      match op with
      | .equals => text = v.asText
      | .contains => v.asText.toList <:+: text.toList
      | _ => False
  | .number column =>
    ∃ n x, column.value? e = some n ∧ v.exactValue? = some x ∧
      match op with
      | .equals => n.position = (x : WithTop ℚ)
      | .greaterThan => (x : WithTop ℚ) < n.position
      | .lessThan => n.position < (x : WithTop ℚ)
      | .between => ∃ y, second.bind RuleValue.exactValue? = some y ∧
          ((min x y : ℚ) : WithTop ℚ) ≤ n.position ∧ n.position ≤ ((max x y : ℚ) : WithTop ℚ)
      | .contains => False
  | .deadClick =>
    ∃ flag, e.isDeadClick = some flag ∧
      (flag = true ↔ (trimBlank v.asText.toList).map Char.toLower = "true".toList)

end FieldTarget

/-- What a rule says of an event: its field and its operator are known, and so is its value. -/
def Rule.HoldsOf (r : Rule) (e : StoredEvent) : Prop :=
  ∃ field op v, CohortField.lookup? r.field = some field ∧
    RuleOperator.ofName? r.operator = some op ∧ RuleValue.ofScalar? r.value = some v ∧
    field.target.Asks op v (r.value2.bind RuleValue.ofScalar?) e

def RawRule.HoldsOf (e : StoredEvent) : RawRule → Prop
  | .checked r => r.HoldsOf e
  | .loose j => ∃ r, Rule.ofJson j = .ok r ∧ r.HoldsOf e

theorem isNaN_of_finite {x : Float} {b : Binary} (h : Binary.ofFloat? x = some b) :
    x.isNaN = false := by
  have hunpack : x.isNaN = x.toModel.unpack.isNaN := rfl
  rw [hunpack, Binary.unpack_of_ofFloat? h, Binary.unpacked]
  split_ifs <;> rfl

namespace NumberTest

variable {x y : Float} {b d : Binary} (n : Number)

theorem isAbove_iff (hx : Binary.ofFloat? x = some b) :
    isAbove n x = true ↔ (b.exact : WithTop ℚ) < n.position := by
  rcases Number.order?_finite n hx with h | ⟨h, htop⟩
  · rw [isAbove, h, beq_iff_eq, compare_gt_iff_gt]
  · rw [isAbove, h, htop, isNaN_of_finite hx]
    exact iff_of_true rfl (WithBot.coe_lt_coe.mpr (WithTop.coe_lt_top _))

theorem holds_between (hx : Binary.ofFloat? x = some b) (hy : Binary.ofFloat? y = some d) :
    (between x y).holds n = true ↔
      (b.exact : WithTop ℚ) ≤ n.position ∧ n.position ≤ (d.exact : WithTop ℚ) := by
  rw [holds, Bool.and_eq_true, Bool.or_eq_true, isAbove_iff n hx, Number.eqv_iff n hx,
    Number.le_iff n hy, eq_comm, ← le_iff_lt_or_eq]

theorem holds_sorted (hx : Binary.ofFloat? x = some b) (hy : Binary.ofFloat? y = some d) :
    (if y < x then between y x else between x y).holds n = true ↔
      ((min b.exact d.exact : ℚ) : WithTop ℚ) ≤ n.position ∧
        n.position ≤ ((max b.exact d.exact : ℚ) : WithTop ℚ) := by
  have hlt := lt_iff_exact hy hx
  split_ifs with h
  · rw [holds_between n hy hx, min_eq_right (hlt.mp h).le, max_eq_left (hlt.mp h).le]
  · have hle : b.exact ≤ d.exact := not_lt.mp fun hexact => h (hlt.mpr hexact)
    rw [holds_between n hx hy, min_eq_left hle, max_eq_right hle]

end NumberTest

namespace Rule

variable {r : Rule} (e : StoredEvent)

theorem holds_textCondition {column : TextColumn} {op : RuleOperator} {c : Condition}
    (h : textCondition column op r = .ok c) (second : Option RuleValue) :
    ∃ v, RuleValue.ofScalar? r.value = some v ∧
      (c.holds e = true ↔ (FieldTarget.text column).Asks op v second e) := by
  obtain ⟨v, hv, ⟨rfl, rfl⟩ | ⟨rfl, rfl⟩⟩ := textCondition_ok h
  · refine ⟨v, hv, ?_⟩
    simp [Condition.holds, FieldTarget.Asks, Option.any_eq_true]
  · refine ⟨v, hv, ?_⟩
    simp [Condition.holds, FieldTarget.Asks, Option.any_eq_true, Like.matchesText_containing]

theorem holds_numberTest {column : NumberColumn} {op : RuleOperator} {test : NumberTest}
    (h : numberTest op r = .ok test) :
    ∃ v, RuleValue.ofScalar? r.value = some v ∧
      ((Condition.number column test).holds e = true ↔
        (FieldTarget.number column).Asks op v (r.value2.bind RuleValue.ofScalar?) e) := by
  obtain ⟨v, x, hv, hx, hcases⟩ := numberTest_ok h
  obtain ⟨b, hb, hexact⟩ := RuleValue.exactValue?_of_asNumber? hx
  refine ⟨v, hv, ?_⟩
  rcases hcases with ⟨rfl, rfl⟩ | ⟨rfl, rfl⟩ | ⟨rfl, rfl⟩ | ⟨rfl, hbetween⟩
  · simp [Condition.holds, FieldTarget.Asks, Option.any_eq_true, NumberTest.holds, hexact,
      Number.eqv_iff _ hb]
  · simp [Condition.holds, FieldTarget.Asks, Option.any_eq_true, NumberTest.holds, hexact,
      NumberTest.isAbove_iff _ hb]
  · simp [Condition.holds, FieldTarget.Asks, Option.any_eq_true, NumberTest.holds, hexact,
      Number.lt_iff _ hb]
  · obtain ⟨second, w, y, hsecond, hw, hy, rfl⟩ := betweenTest_ok hbetween
    obtain ⟨d, hd, hexact'⟩ := RuleValue.exactValue?_of_asNumber? hy
    simp [Condition.holds, FieldTarget.Asks, Option.any_eq_true, hexact, hsecond, hw, hexact',
      NumberTest.holds_sorted _ hb hd]

theorem eq_flagOf_iff {flag : Bool} {v : RuleValue} :
    flag = flagOf v ↔
      (flag = true ↔ (trimBlank v.asText.toList).map Char.toLower = "true".toList) := by
  rw [Bool.eq_iff_iff, flagOf, beq_iff_eq]

theorem holds_compile {c : Condition} (h : r.compile = .ok c) : c.holds e = true ↔ r.HoldsOf e := by
  obtain ⟨field, op, hfield, hop, htarget⟩ := compile_ok h
  have hasks_iff {v : RuleValue} (hv : RuleValue.ofScalar? r.value = some v) :
      r.HoldsOf e ↔ field.target.Asks op v (r.value2.bind RuleValue.ofScalar?) e := by
    constructor
    · rintro ⟨field', op', v', hfield', hop', hv', hasks⟩
      rw [hfield] at hfield'
      rw [hop] at hop'
      rw [hv] at hv'
      obtain rfl := Option.some.inj hfield'
      obtain rfl := Option.some.inj hop'
      obtain rfl := Option.some.inj hv'
      exact hasks
    · intro hasks
      exact ⟨field, op, v, hfield, hop, hv, hasks⟩
  cases htype : field.target with
  | text column =>
    rw [htype] at htarget hasks_iff
    obtain ⟨v, hv, hholds⟩ := holds_textCondition e htarget _
    exact hholds.trans (hasks_iff hv).symm
  | number column =>
    rw [htype] at htarget hasks_iff
    obtain ⟨test, htest, rfl⟩ := htarget
    obtain ⟨v, hv, hholds⟩ := @holds_numberTest r e column op test htest
    exact hholds.trans (hasks_iff hv).symm
  | deadClick =>
    rw [htype] at htarget hasks_iff
    obtain ⟨v, hv, rfl⟩ := htarget
    rw [hasks_iff hv]
    simp only [Condition.holds, FieldTarget.Asks, Option.any_eq_true, beq_iff_eq, eq_flagOf_iff]

end Rule

theorem RawRule.holds_compile {raw : RawRule} {c : Condition} (h : raw.compile = .ok c)
    (e : StoredEvent) : c.holds e = true ↔ raw.HoldsOf e := by
  cases raw with
  | checked r => exact Rule.holds_compile e h
  | loose j =>
    cases hj : Rule.ofJson j with
    | ok r =>
      simp only [compile, hj] at h
      rw [Rule.holds_compile e h]
      simp [HoldsOf, hj]
    | error issues =>
      simp only [compile, hj] at h
      cases h

namespace Compiled

variable {rules : List RawRule} {compiled : Compiled}

theorem holds_predicate (h : ofRules? rules = some compiled) (e : StoredEvent) :
    compiled.predicate.holds e = true ↔
      ∀ raw ∈ rules, ∀ c, raw.compile = .ok c → raw.HoldsOf e := by
  rw [Predicate.holds, List.all_eq_true]
  constructor
  · intro hall raw hraw c hc
    exact (RawRule.holds_compile hc e).mp (hall c ((mem_predicate_iff h).mpr ⟨raw, hraw, hc⟩))
  · intro hall c hc
    obtain ⟨raw, hraw, hcompile⟩ := (mem_predicate_iff h).mp hc
    exact (RawRule.holds_compile hcompile e).mpr (hall raw hraw c hcompile)

theorem selects_iff_holdsOf (h : ofRules? rules = some compiled) (e : StoredEvent) :
    (Bound.Selects compiled.predicate.sql compiled.predicate.params e ↔
        ∀ i raw, rules[i]? = some raw → (∀ w ∈ compiled.warnings, w.index ≠ i) → raw.HoldsOf e) ∧
      ((∀ i < rules.length, ∃ w ∈ compiled.warnings, w.index = i) →
        Bound.Selects compiled.predicate.sql compiled.predicate.params e) := by
  have hselects : Bound.Selects compiled.predicate.sql compiled.predicate.params e ↔
      ∀ i raw, rules[i]? = some raw → (∀ w ∈ compiled.warnings, w.index ≠ i) → raw.HoldsOf e := by
    rw [Bound.selects_sql_iff, holds_predicate h]
    constructor
    · intro hall i raw hraw hunwarned
      obtain ⟨c, hc⟩ := (unwarned_iff h hraw).mp hunwarned
      exact hall raw (List.mem_of_getElem? hraw) c hc
    · intro hall raw hmem c hc
      obtain ⟨i, hi⟩ := List.mem_iff_getElem?.mp hmem
      exact hall i raw hi ((unwarned_iff h hi).mpr ⟨c, hc⟩)
  refine ⟨hselects, fun hwarned => hselects.mpr ?_⟩
  intro i raw hraw hunwarned
  obtain ⟨hi, -⟩ := List.getElem?_eq_some_iff.mp hraw
  obtain ⟨w, hw, hindex⟩ := hwarned i hi
  exact absurd hindex (hunwarned w hw)

/-- A wildcard in a rule is an ordinary character, and a rule on an unknown field has no effect. -/
theorem selects_iff_holdsOf_percent :
    let rules : List RawRule := [.checked ⟨"page_path", "contains", .text "50%", none⟩,
      .checked ⟨"shoe_size", "equals", .text "42", none⟩]
    let compiled : Compiled := ⟨[.textLike .pagePath "%50\\%%"],
      [⟨1, "shoe_size", .unsupportedField "shoe_size"⟩]⟩
    let event : StoredEvent := ⟨"e1", "shop", "v1", "page_view", default, some "/sale-50%-off", none,
      none, none, none, none, none, none, none, [], [], .null⟩
    Compiled.ofRules? rules = some compiled ∧
      Bound.Selects compiled.predicate.sql compiled.predicate.params event := by
  intro rules compiled event
  have h : Compiled.ofRules? rules = some compiled := rfl
  refine ⟨h, (selects_iff_holdsOf h event).1.mpr ?_⟩
  intro i raw hraw hunwarned
  match i with
  | 0 =>
    obtain rfl := Option.some.inj hraw
    exact ⟨_, _, _, rfl, rfl, rfl, _, rfl, "/sale-".toList, "-off".toList, rfl⟩
  | 1 => exact absurd rfl (hunwarned _ (.head _))

end Compiled

end CohortAnalytics
