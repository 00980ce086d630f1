import CohortAnalytics.Proofs.Cohort.Bound
import CohortAnalytics.Proofs.Cohort.Compiled
import CohortAnalytics.Proofs.Number.ReadBack

/-!
A predicate with its values written out is read, token by token, as its text with placeholders once
the parameters have taken their places. Only finite numbers are ever written out.
-/

namespace CohortAnalytics

open Inline

theorem isNumberChar_of_isNumeral {c : Char} (h : isNumeral c) : isNumberChar c = true := by
  simp only [isNumeral, isNumberChar, Bool.or_eq_true, beq_iff_eq] at h ⊢
  tauto

theorem not_isWordChar_of_start {c : Char} (h : c.isDigit ∨ c = '-') : isWordChar c = false := by
  rcases h with h | rfl
  · exact of_isDigit (p := fun c => isWordChar c = false) (by decide) h
  · decide

/-- A finite number is one token, also where it is negative or has an exponent. -/
theorem readAs_floatText {x : Float} {b : Binary} (h : Binary.ofFloat? x = some b) :
    ReadAs (floatText x).toList [.number x] := by
  obtain ⟨⟨c, cs, hcs, hc⟩, hnumeral, -⟩ := plainLayout.write_shape rfl h
  have hread : readFloat? (String.ofList (plainLayout.write x)) = some x :=
    readFloat?_write ⟨rfl, by decide, .inl rfl, .inl rfl⟩ x
  rw [floatText, String.toList_ofList]
  rw [hcs] at hnumeral hread ⊢
  have hchars : ∀ d ∈ c :: cs, isNumberChar d = true :=
    fun d hd => isNumberChar_of_isNumeral (hnumeral d hd)
  have hnumber := hchars c (by simp)
  have hnotBlank : c ≠ ' ' := by
    rintro rfl
    exact absurd hnumber (by decide)
  have hnotQuote : c ≠ '\x27' := by
    rintro rfl
    exact absurd hnumber (by decide)
  apply ReadAs.of_token hnotBlank
  intro rest hrest
  obtain ⟨htake, hdrop⟩ := takeWhile_boundary (by decide) hchars hrest
  rw [List.cons_append] at htake hdrop
  rw [List.dropWhile_cons_of_pos hnumber] at hdrop
  rw [token?, if_neg hnotQuote, if_neg (by simp [not_isWordChar_of_start hc]), if_pos hnumber, htake,
    hdrop, hread, Option.map_some]

/-- Values that are written out so that they can be read back. -/
def Json.IsLiteral : Json → Prop
  | .text _ => True
  | .bool _ => True
  | .number (.float x) => ∃ b, Binary.ofFloat? x = some b
  | _ => False

theorem readAs_quoteLiteral {v : Json} (hv : v.IsLiteral) :
    ReadAs (quoteLiteral v).toList [Condition.literalToken v] := by
  match v with
  | .text s => exact readAs_quoteText s
  | .bool true => exact readAs_word (w := "true") (by decide) (by decide)
  | .bool false => exact readAs_word (w := "false") (by decide) (by decide)
  | .number (.float x) =>
    obtain ⟨b, hb⟩ := hv
    exact readAs_floatText hb
  | .number (.int _) | .null | .array _ | .object _ => exact hv.elim

theorem Rule.isLiteral_of_compile {r : Rule} {c : Condition} (h : r.compile = .ok c) :
    ∀ v ∈ c.params, v.IsLiteral := by
  obtain ⟨field, op, -, -, htarget⟩ := compile_ok h
  cases htype : field.target with
  | deadClick =>
    rw [htype] at htarget
    obtain ⟨v, -, rfl⟩ := htarget
    simp [Condition.params, Json.IsLiteral]
  | text column =>
    rw [htype] at htarget
    obtain ⟨v, -, ⟨-, rfl⟩ | ⟨-, rfl⟩⟩ := textCondition_ok htarget <;>
      simp [Condition.params, Json.IsLiteral]
  | number column =>
    rw [htype] at htarget
    obtain ⟨test, htest, rfl⟩ := htarget
    obtain ⟨v, x, -, hx, hcases⟩ := numberTest_ok htest
    have hx := RuleValue.asNumber?_finite hx
    rcases hcases with ⟨-, rfl⟩ | ⟨-, rfl⟩ | ⟨-, rfl⟩ | ⟨-, hbetween⟩
    · simpa [Condition.params, NumberTest.params, Json.IsLiteral] using hx
    · simpa [Condition.params, NumberTest.params, Json.IsLiteral] using hx
    · simpa [Condition.params, NumberTest.params, Json.IsLiteral] using hx
    · obtain ⟨-, w, y, -, -, hy, rfl⟩ := betweenTest_ok hbetween
      have hy := RuleValue.asNumber?_finite hy
      split_ifs
      · simpa [Condition.params, NumberTest.params, Json.IsLiteral] using ⟨hy, hx⟩
      · simpa [Condition.params, NumberTest.params, Json.IsLiteral] using ⟨hx, hy⟩

theorem RawRule.isLiteral_of_compile {raw : RawRule} {c : Condition} (h : raw.compile = .ok c) :
    ∀ v ∈ c.params, v.IsLiteral := by
  cases raw with
  | checked r => exact Rule.isLiteral_of_compile h
  | loose j =>
    cases hj : Rule.ofJson j with
    | ok r =>
      simp only [compile, hj] at h
      exact Rule.isLiteral_of_compile h
    | error _ =>
      simp only [compile, hj] at h
      cases h

namespace Predicate

variable {p : Predicate}

theorem tokens?_everything :
    tokens? everything = some [.number 1, .symbol '=', .number 1] := by
  decide +kernel

theorem tokens?_inline (hne : p ≠ []) (h : ∀ c ∈ p, ∀ v ∈ c.params, v.IsLiteral) :
    tokens? p.inline = some (p.tokens Condition.literalToken) :=
  (readAs_joined hne fun c hc v hv => readAs_quoteLiteral (h c hc v hv)).tokens?_eq

theorem inline_ne_everything (hne : p ≠ []) (h : ∀ c ∈ p, ∀ v ∈ c.params, v.IsLiteral) :
    p.inline ≠ everything := by
  obtain ⟨c, rest, rfl⟩ := List.exists_cons_of_ne_nil hne
  obtain ⟨ts, hts⟩ := @tokens_cons Condition.literalToken c rest
  intro heq
  have htokens := tokens?_inline hne h
  rw [heq, tokens?_everything, hts] at htokens
  cases htokens

/-- The tokens of the text with placeholders, each placeholder replaced by its parameter. -/
theorem bound_tokens_inline (h : ∀ c ∈ p, ∀ v ∈ c.params, v.IsLiteral) :
    ∃ placed written, tokens? p.sql = some placed ∧ Bound.bind? placed p.params = some written ∧
      tokens? p.inline = some written := by
  by_cases hne : p = []
  · subst hne
    exact ⟨_, _, tokens?_everything, rfl, tokens?_everything⟩
  · exact ⟨_, _, Bound.tokens?_sql hne, Bound.bind?_predicate hne, tokens?_inline hne h⟩

theorem read?_inline (h : ∀ c ∈ p, ∀ v ∈ c.params, v.IsLiteral) : read? p.inline = some p := by
  by_cases hne : p = []
  · subst hne
    rfl
  rw [read?, if_neg (inline_ne_everything hne h), tokens?_inline hne h]
  exact conditionsIn_allTokens hne

end Predicate

namespace Compiled

variable {rules : List RawRule} {compiled : Compiled}

theorem isLiteral_of_mem_params (h : ofRules? rules = some compiled) :
    ∀ c ∈ compiled.predicate, ∀ v ∈ c.params, v.IsLiteral := by
  intro c hc
  obtain ⟨raw, -, hcompile⟩ := (mem_predicate_iff h).mp hc
  exact RawRule.isLiteral_of_compile hcompile

/-- The written text has the tokens of the text with placeholders and, at each placeholder, the
literal of its parameter; both are read as the compiled predicate. -/
theorem inline_reads_as_bound (h : ofRules? rules = some compiled) :
    (∃ placed written, tokens? compiled.predicate.sql = some placed ∧
        Bound.bind? placed compiled.predicate.params = some written ∧
        tokens? compiled.predicate.inline = some written) ∧
      read? compiled.predicate.inline = some compiled.predicate ∧
      Bound.read? compiled.predicate.sql compiled.predicate.params = some compiled.predicate ∧
      ∀ v ∈ compiled.predicate.params, v.IsLiteral := by
  have hliteral := isLiteral_of_mem_params h
  refine ⟨Predicate.bound_tokens_inline hliteral, Predicate.read?_inline hliteral,
    Bound.read?_sql _, ?_⟩
  intro v hv
  obtain ⟨c, hc, hv⟩ := List.mem_flatMap.mp hv
  exact hliteral c hc v hv

/-- A quote that would end its literal, a comment mark, a placeholder, a backslash before the quote
that ends the literal, and bounds in the wrong order. -/
theorem inline_reads_as_bound_quotes :
    let rules : List RawRule := [
      .checked ⟨"referrer", "equals", .text "x\x27 OR 1=1 -- ?", none⟩,
      .checked ⟨"page_path", "contains", .text "50%\\\x27", none⟩,
      .checked ⟨"scroll_depth", "between", .number (.float 2.5), some (.text "-1e-3")⟩]
    let compiled : Compiled := ⟨[.textIs .referrer "x\x27 OR 1=1 -- ?",
      .textLike .pagePath "%50\\%\\\\\x27%", .number .scrollDepth (.between (-0.001) 2.5)], []⟩
    ofRules? rules = some compiled ∧ read? compiled.predicate.inline = some compiled.predicate := by
  intro rules compiled
  have h : ofRules? rules = some compiled := rfl
  exact ⟨h, (inline_reads_as_bound h).2.1⟩

end Compiled

end CohortAnalytics
