import CohortAnalytics.Proofs.Cohort.Accounting
import CohortAnalytics.Proofs.Cohort.Like
import CohortAnalytics.Proofs.Number.Integers
import Mathlib

/-!
An integer as the value of a rule, given as a number or in its digits. A number has been a double
when it is compared as text, so the two are one value as long as 53 bits are enough for the integer.
-/

namespace CohortAnalytics

theorem Like.containing_inj {s t : String} (h : containing s = containing t) : s = t := by
  have hpieces := congrArg (fun pattern => pieces pattern.toList) h
  simp only [pieces_containing, List.cons.injEq, true_and, List.append_cancel_right_eq] at hpieces
  have hchar : Function.Injective Piece.char := fun _ _ => Piece.char.inj
  exact String.toList_inj.mp (List.map_injective_iff.mpr hchar hpieces)

structure Scalar.Gives (s : Scalar) (v : RuleValue) (x : Float) : Prop where
  value : Rule.valueOf s = .ok v
  number : v.asNumber? = some x

namespace Rule

variable {r : Rule} {s s' : Scalar} {v v' : RuleValue} {x : Float}

def withValue (r : Rule) (value : Scalar) : Rule := { r with value := value }

/-- The value of the rule is compared as text, in full or as a part. -/
def ComparesText (r : Rule) : Prop :=
  ∃ field op column, CohortField.lookup? r.field = some field ∧
    RuleOperator.ofName? r.operator = some op ∧ field.target = .text column ∧ field.target.Reads op

@[simp]
theorem withValue_field (r : Rule) (s : Scalar) : (r.withValue s).field = r.field := rfl

@[simp]
theorem withValue_operator (r : Rule) (s : Scalar) : (r.withValue s).operator = r.operator := rfl

@[simp]
theorem withValue_value (r : Rule) (s : Scalar) : (r.withValue s).value = s := rfl

@[simp]
theorem betweenTest_withValue (x : Float) (r : Rule) (s : Scalar) :
    betweenTest x (r.withValue s) = betweenTest x r := rfl

theorem numberTest_congr (hs : s.Gives v x) (hs' : s'.Gives v' x) (op : RuleOperator) :
    numberTest op (r.withValue s) = numberTest op (r.withValue s') := by
  unfold numberTest
  simp only [withValue_value, betweenTest_withValue, ok_bind hs.value, ok_bind hs'.value, numberOf,
    hs.number, hs'.number]

theorem textCondition_congr (hs : s.Gives v x) (hs' : s'.Gives v' x) {op : RuleOperator}
    (htext : op = .equals ∨ op = .contains → v.asText = v'.asText) (column : TextColumn) :
    textCondition column op (r.withValue s) = textCondition column op (r.withValue s') := by
  unfold textCondition
  simp only [withValue_value, ok_bind hs.value, ok_bind hs'.value]
  split_ifs with hequals hcontains
  · rw [htext (.inl hequals)]
  · rw [htext (.inr hcontains)]
  · rfl

/-- Two values of one number are the same to a rule that does not compare their texts. -/
theorem compile_congr (hs : s.Gives v x) (hs' : s'.Gives v' x) (hflag : flagOf v = flagOf v')
    (htext : r.ComparesText → v.asText = v'.asText) :
    (r.withValue s).compile = (r.withValue s').compile := by
  simp only [compile, withValue_field, withValue_operator, withValue_value]
  cases hlookup : CohortField.lookup? r.field with
  | none => rfl
  | some field =>
    cases hop : RuleOperator.ofName? r.operator with
    | none => rfl
    | some op =>
      dsimp only
      cases htarget : field.target with
      | deadClick => simp only [ok_bind hs.value, ok_bind hs'.value, hflag]
      | number column => simp only [numberTest_congr hs hs' op]
      | text column =>
        refine textCondition_congr hs hs' (fun hreads => htext ?_) column
        exact ⟨field, op, column, hlookup, hop, htarget, by rw [htarget]; exact hreads⟩

theorem asText_eq_of_compile (hs : s.Gives v x) (hs' : s'.Gives v' x) (h : r.ComparesText)
    (hcompile : (r.withValue s).compile = (r.withValue s').compile) : v.asText = v'.asText := by
  obtain ⟨field, op, column, hlookup, hop, htarget, hreads⟩ := h
  rw [htarget] at hreads
  simp only [compile, withValue_field, withValue_operator, hlookup, hop, htarget, textCondition,
    withValue_value, ok_bind hs.value, ok_bind hs'.value] at hcompile
  rcases hreads with rfl | rfl
  · exact (Condition.textIs.inj (Except.ok.inj hcompile)).2
  · exact Like.containing_inj (Condition.textLike.inj (Except.ok.inj hcompile)).2

theorem flagOf_intText {n : ℤ} (h : v.asText = toString n) : flagOf v = false := by
  obtain ⟨hchars, c, rest, hcons, -⟩ := Json.writeInt_spec n
  have hnumeral : ∀ c ∈ (toString n).toList, isNumeral c := by
    intro c hc
    rcases hchars c hc with hdigit | rfl
    · simp [isNumeral, hdigit]
    · decide
  have hlower : c.toLower = c ∧ c ≠ 't' := by
    rcases hchars c (hcons ▸ List.mem_cons_self) with hdigit | rfl
    · exact of_isDigit (p := fun c => c.toLower = c ∧ c ≠ 't') (by decide) hdigit
    · decide
  rw [flagOf, h, trimBlank_eq_self fun c hc => isBlank_of_isNumeral (hnumeral c hc), hcons,
    beq_eq_false_iff_ne, List.map_cons, hlower.1]
  intro heq
  exact hlower.2 (List.cons.inj heq).1

end Rule

namespace Scalar

variable {n : ℤ} {x : Float}

theorem finite?_of_ofInt? (hx : Binary.ofInt? n = some x) : RuleValue.finite? x = some x := by
  obtain ⟨m, hwhole, -, -⟩ := Binary.exists_whole hx
  rw [RuleValue.finite?, if_pos]
  rw [wholeFloat?] at hwhole
  split at hwhole
  · rename_i b hb
    rw [hb, Option.isSome_some]
  · cases hwhole

theorem gives_number (hx : Binary.ofInt? n = some x) : Gives (.number (.int n)) (.number x) x where
  value := by
    simp [Rule.valueOf, RuleValue.ofScalar?, toJson, RuleValue.ofJson?, Number.toFloat?, hx]
  number := finite?_of_ofInt? hx

theorem gives_digits (hx : Binary.ofInt? n = some x) :
    Gives (.text (toString n)) (.text (toString n)) x where
  value := rfl
  number := by
    rw [RuleValue.asNumber?, readFloat?_intText hx]
    exact finite?_of_ofInt? hx

end Scalar

namespace Checked

variable {α β : Type} {a : Checked α} {b : Checked β}

theorem both_ok {p : α × β} (h : both a b = .ok p) : a = .ok p.1 ∧ b = .ok p.2 := by
  cases a <;> cases b <;> cases h
  exact ⟨rfl, rfl⟩

theorem map_ok {f : α → β} {y : β} (h : a.map f = .ok y) : ∃ x, a = .ok x ∧ f x = y := by
  cases a with
  | error _ => cases h
  | ok x => exact ⟨x, rfl, Except.ok.inj h⟩

end Checked

namespace RawRule

/-- The data is of the rule, checked before or yet to be read. -/
def Carries (r : Rule) : RawRule → Prop
  | .checked r' => r' = r
  | .loose j => Rule.ofJson j = .ok r

variable {raw : RawRule} {r : Rule}

theorem Carries.compile_eq (h : raw.Carries r) : raw.compile = r.compile := by
  cases raw with
  | checked r' => exact congrArg Rule.compile h
  | loose j =>
    have hj : Rule.ofJson j = .ok r := h
    rw [compile, hj]

theorem field_of_ofJson {j : Json} (h : Rule.ofJson j = .ok r) : (loose j).field = r.field := by
  cases j with
  | object members =>
    obtain ⟨parts, hparts, rfl⟩ := Checked.map_ok h
    have hfield := mapError_ok (Checked.both_ok hparts).1
    cases hfind : Entries.find? "field" members with
    | none =>
      rw [hfind] at hfield
      cases hfield
    | some v =>
      rw [hfind] at hfield
      cases v with
      | text s =>
        obtain rfl : s = parts.1 := Except.ok.inj hfield
        simp [field, hfind, Json.display]
      | _ => cases hfield
  | _ => cases h

theorem Carries.field_eq (h : raw.Carries r) : raw.field = r.field := by
  cases raw with
  | checked r' => exact congrArg Rule.field h
  | loose j => exact field_of_ofJson h

end RawRule

namespace Compiled

theorem ofRules?_congr {raw raw' : RawRule} (hcompile : raw.compile = raw'.compile)
    (hfield : raw.field = raw'.field) (before after : List RawRule) :
    ofRules? (before ++ raw :: after) = ofRules? (before ++ raw' :: after) := by
  have hprepend (compiled : Compiled) (index : ℕ) :
      compiled.prependTo index raw = compiled.prependTo index raw' := by
    rw [prependTo, prependTo, hcompile, hfield]
  simp only [ofRules?, ofRulesFrom?_append, ofRulesFrom?, hprepend]

end Compiled

namespace Rule

variable {n : ℤ} {x : Float}

/-- The two values give the rule one condition or one warning, among whatever other rules. -/
def Interchangeable (r : Rule) (s s' : Scalar) : Prop :=
  (r.withValue s).compile = (r.withValue s').compile ∧
    ∀ raw raw' : RawRule, raw.Carries (r.withValue s) → raw'.Carries (r.withValue s') →
      ∀ before after, Compiled.ofRules? (before ++ raw :: after) =
        Compiled.ofRules? (before ++ raw' :: after)

theorem interchangeable_iff {r : Rule} {s s' : Scalar} :
    r.Interchangeable s s' ↔ (r.withValue s).compile = (r.withValue s').compile := by
  refine ⟨And.left, fun h => ⟨h, fun raw raw' hraw hraw' => ?_⟩⟩
  apply Compiled.ofRules?_congr
  · rw [hraw.compile_eq, hraw'.compile_eq, h]
  · rw [hraw.field_eq, hraw'.field_eq, withValue_field, withValue_field]

/-- A number is as good as the digits of the whole number that its double is. Its own digits are
as good exactly if these two are one, or no text is compared. -/
theorem integer_interchangeable (hx : Binary.ofInt? n = some x) (r : Rule) :
    ∃ m, wholeFloat? x = some m ∧ (m = n ↔ FitsDouble n) ∧
      r.Interchangeable (.number (.int n)) (.text (toString m)) ∧
      (r.Interchangeable (.number (.int n)) (.text (toString n)) ↔
        (r.ComparesText → FitsDouble n)) := by
  obtain ⟨m, hwhole, hm, hfits⟩ := Binary.exists_whole hx
  have hnumber := Scalar.gives_number hx
  have hdigits := Scalar.gives_digits hx
  have htext : (RuleValue.number x).asText = toString m := by
    simp only [RuleValue.asText, hwhole]
  have hflag : flagOf (.number x) = flagOf (.text (toString n)) := by
    rw [flagOf_intText htext, flagOf_intText rfl]
  have hinj : (RuleValue.number x).asText = (RuleValue.text (toString n)).asText ↔ m = n := by
    rw [htext]
    exact ⟨fun h => intText_inj (congrArg String.toList h), congrArg toString⟩
  refine ⟨m, hwhole, hfits, ?_, ?_⟩
  · rw [interchangeable_iff]
    apply compile_congr hnumber (Scalar.gives_digits hm) _ fun _ => htext
    rw [flagOf_intText htext, flagOf_intText rfl]
  · rw [interchangeable_iff, ← hfits, ← hinj]
    exact ⟨fun h hcompares => asText_eq_of_compile hnumber hdigits hcompares h,
      compile_congr hnumber hdigits hflag⟩

def pagePathRule (operator : String) : Rule := ⟨"page_path", operator, .text "", none⟩

/-- Two to the sixty-fourth has one bit, so a page path that holds it is found either way. -/
theorem integer_interchangeable_power :
    Binary.ofInt? (2 ^ 64) = some (Float.ofBits 0x43F0000000000000) ∧
      (pagePathRule "contains").ComparesText ∧ FitsDouble (2 ^ 64) ∧
      (pagePathRule "contains").Interchangeable (.number (.int (2 ^ 64)))
        (.text (toString (2 ^ 64 : ℤ))) := by
  have hx : Binary.ofInt? (2 ^ 64) = some (Float.ofBits 0x43F0000000000000) := by
    decide +kernel
  have hfits : FitsDouble (2 ^ 64) := ⟨1, 64, by norm_num, by norm_num⟩
  have hcompares : (pagePathRule "contains").ComparesText :=
    ⟨⟨"page_path", .text .pagePath⟩, .contains, .pagePath, rfl, rfl, rfl, .inr rfl⟩
  obtain ⟨m, -, -, -, hdigits⟩ := integer_interchangeable hx (pagePathRule "contains")
  exact ⟨hx, hcompares, hfits, hdigits.mpr fun _ => hfits⟩

/-- The first integer of 54 bits with the last one set is compared as the integer before it. -/
theorem rounds_compared_integer :
    let n : ℤ := 9007199254740993
    let r := pagePathRule "equals"
    (Binary.ofInt? n).isSome = true ∧
      (r.withValue (.number (.int n))).compile = .ok (.textIs .pagePath "9007199254740992") ∧
      (r.withValue (.text (toString n))).compile = .ok (.textIs .pagePath "9007199254740993") ∧
      ¬r.Interchangeable (.number (.int n)) (.text (toString n)) := by
  intro n r
  have hnumber : (r.withValue (.number (.int n))).compile =
      .ok (.textIs .pagePath "9007199254740992") := by
    decide +kernel
  have hdigits : (r.withValue (.text (toString n))).compile =
      .ok (.textIs .pagePath "9007199254740993") := by
    decide +kernel
  refine ⟨by decide +kernel, hnumber, hdigits, fun h => ?_⟩
  have hcondition := hnumber.symm.trans (h.1.trans hdigits)
  exact absurd (Condition.textIs.inj (Except.ok.inj hcondition)).2 (by decide)

end Rule

end CohortAnalytics
