import CohortAnalytics.CommandLine.Validate
import CohortAnalytics.Proofs.Audit.Reports
import CohortAnalytics.Proofs.Number.Finite

/-!
What the audit vouches for. In a document without findings nothing has failed, the users add up and every
winner stands for something. Where the audit asks only whether a number is too great, one that is no number
passes; everything else is as it should be, and all of it where every number is one.
-/

namespace CohortAnalytics

namespace Number

variable {a b c : Number}

@[simp]
theorem isProper_int (n : ℤ) : (int n).isProper = true := rfl

theorem isProper_of_toFloat? {x : Float} (ha : a.toFloat? = some x) (hx : x.isNaN = false) :
    a.isProper = true := by
  cases a with
  | int n => rfl
  | float y =>
    obtain rfl := Option.some.inj ha
    exact congrArg not hx

theorem isProper_of_add? (h : a.add? b = some c) (hc : c.isProper = true) :
    a.isProper = true ∧ b.isProper = true := by
  have hfloat {x y : Float} (ha : a.toFloat? = some x) (hb : b.toFloat? = some y)
      (hsum : Number.float (x + y) = c) : a.isProper = true ∧ b.isProper = true := by
    rw [← hsum, isProper, Bool.not_eq_true'] at hc
    obtain ⟨hx, hy⟩ := Double.isNaN_of_add hc
    exact ⟨isProper_of_toFloat? ha hx, isProper_of_toFloat? hb hy⟩
  cases a with
  | int m =>
    cases b with
    | int n => exact ⟨rfl, rfl⟩
    | float y =>
      obtain ⟨x, hx, h⟩ := Option.bind_eq_some_iff.mp h
      exact hfloat hx rfl (Option.some.inj h)
  | float x =>
    cases b with
    | int n =>
      obtain ⟨y, hy, h⟩ := Option.bind_eq_some_iff.mp h
      exact hfloat rfl hy (Option.some.inj h)
    | float y => exact hfloat rfl rfl (Option.some.inj h)

end Number

namespace Json

/-- What is no number spoils every sum that it is in. -/
theorem isProper_of_sum {items : List Json} {total : Number} (h : sum items = .ok total)
    (htotal : total.isProper = true) : ∀ j ∈ items, ∃ n, j.number? = some n ∧ n.isProper = true := by
  rw [sum] at h
  generalize Number.int 0 = start at h
  have hboth : start.isProper = true ∧ ∀ j ∈ items, ∃ n, j.number? = some n ∧ n.isProper = true := by
    induction items generalizing start with
    | nil =>
      obtain rfl : start = total := Except.ok.inj h
      exact ⟨htotal, List.forall_mem_nil _⟩
    | cons j rest ih =>
      rw [List.foldlM_cons] at h
      obtain ⟨next, hnext, h⟩ := bind_ok h
      obtain ⟨hproper, hrest⟩ := ih next h
      split at hnext
      · cases hnext
      · next n hn =>
        split at hnext
        · next hadd =>
          obtain rfl := Except.ok.inj hnext
          obtain ⟨hstart, hproper⟩ := Number.isProper_of_add? hadd hproper
          exact ⟨hstart, List.forall_mem_cons.mpr ⟨⟨n, hn, hproper⟩, hrest⟩⟩
        · cases hnext
  exact hboth.2

theorem member_ok {j v : Json} {name : String} (h : j.member name = .ok v) : j.get? name = some v := by
  cases j with
  | object members =>
    rw [member] at h
    rw [get?]
    split at h
    · next hfind => rw [hfind, Except.ok.inj h]
    · cases h
  | _ => cases h

theorem memberOr_ok {j v default : Json} {name : String} (h : j.memberOr name default = .ok v) :
    (∃ members, j = .object members) ∧ v = (j.get? name).getD default := by
  cases j with
  | object members => exact ⟨⟨members, rfl⟩, (Except.ok.inj h).symm⟩
  | _ => cases h

/-- A list is told from a text and from an object by its parts, if there are any. -/
theorem array_of_parts {j : Json} {items : List Json} (h : j.parts = .ok items) (hne : items ≠ [])
    (htext : ∀ s, .text s ∉ items) : j = .array items := by
  cases j with
  | array given => rw [Except.ok.inj h]
  | text s =>
    obtain rfl := Except.ok.inj h
    obtain ⟨c, hc⟩ := List.exists_mem_of_ne_nil _ fun hnil => hne (List.map_eq_nil_iff.mpr hnil)
    exact absurd (List.mem_map_of_mem hc) (htext _)
  | object members =>
    obtain rfl := Except.ok.inj h
    obtain ⟨m, hm⟩ := List.exists_mem_of_ne_nil _ fun hnil => hne (List.map_eq_nil_iff.mpr hnil)
    exact absurd (List.mem_map_of_mem hm) (htext _)
  | _ => cases h

theorem parts_ne_nil {j : Json} {items : List Json} (h : j.parts = .ok items)
    (hsome : j.isNothing = false) : items ≠ [] := by
  rintro rfl
  cases j with
  | array given =>
    rw [Except.ok.inj h] at hsome
    cases hsome
  | text s =>
    have hnil := List.map_eq_nil_iff.mp (Except.ok.inj h)
    rw [isNothing, String.toList_eq_nil_iff.mp hnil] at hsome
    cases hsome
  | object members =>
    rw [List.map_eq_nil_iff.mp (Except.ok.inj h)] at hsome
    cases hsome
  | _ => cases h

end Json

namespace Audit

def AtMost (a b : Json) : Prop := a.isAtMost b = .ok true

def AtMostOrNaN (a b : Json) : Prop := AtMost a b ∨ a.HoldsNaN ∨ b.HoldsNaN

section Laws

variable (R : Json → Json → Prop)

def MetricsLaw (m : Json) : Prop :=
  ∃ sessions clicking rate, m.get? "sessions" = some sessions ∧
    m.get? "sessions_with_clicks" = some clicking ∧ m.get? "click_rate" = some rate ∧
    R clicking sessions ∧ AtMost (.int 0) rate ∧ AtMost rate (.int 100)

structure CohortLaw (item : Json) : Prop where
  answered : ∀ failed, item.get? "query_failed" = some failed → failed.isNothing = true
  metrics : ∃ m, item.get? "metrics" = some m ∧ MetricsLaw R m

def RowLaw (row : Json) : Prop :=
  ∃ sessions, row.get? "sessions" = some sessions ∧ ((Json.int 0).isBelow sessions = .ok true →
    ∃ events, row.get? "events" = some events ∧ R sessions events)

def VariantLaw (v : Json) : Prop :=
  ∃ users conversions, v.get? "users" = some users ∧ v.get? "conversions" = some conversions ∧
    (Json.int 0).isBelow users = .ok true ∧ R conversions users

/-- The users of the variants add up to those of the experiment. -/
def UsersLaw (e : Json) (variants : List Json) : Prop :=
  ∃ users total given, List.Forall₂ (fun v u => v.get? "users" = some u) variants users ∧
    Json.sum users = .ok total ∧ e.get? "total_users" = some given ∧ Json.same (.number total) given = true

def WinnerLaw (e : Json) (variants : List Json) : Prop :=
  ∃ w, e.get? "winner_variant_id" = some w ∧ (w = .null ∨
    (∃ significant, e.get? "is_significant" = some significant ∧ significant.isNothing = false) ∧
      ∃ v ∈ variants, ∃ id, v.get? "variant_id" = some id ∧ w.same id = true)

structure ExperimentLaw (e : Json) : Prop where
  answered : ∃ failed, e.get? "query_failed" = some failed ∧ failed.isNothing = true
  variants : ∃ variants, e.get? "variants" = some (.array variants) ∧ 2 ≤ variants.length ∧
    (∀ v ∈ variants, VariantLaw R v) ∧ UsersLaw e variants ∧ WinnerLaw e variants
  confidence : ∃ c, e.get? "confidence_level" = some c ∧ R (.int 0) c ∧ R c (.int 100)

/-- What a document shows, with some notion of one value being at most another. -/
structure Sound (data : Json) : Prop where
  cohorts : ∃ items, data.get? "cohorts" = some (.array items) ∧ ∀ item ∈ items, CohortLaw R item
  comparison : ∃ rows, data.get? "comparison" = some (.array rows) ∧ ∀ row ∈ rows, RowLaw R row
  experiments : ∃ results, data.get? "experiments" = some (.array results) ∧
    ∀ e ∈ results, ExperimentLaw R e

end Laws

/-- Values of some sort, together with their parts, of which one is at most another if the other is not
below it. -/
structure Admits (P : Json → Prop) (R : Json → Json → Prop) : Prop where
  part {j v : Json} {name : String} (hj : P j) (h : j.get? name = some v) : P v
  item {items : List Json} {v : Json} (h : P (.array items)) (hv : v ∈ items) : P v
  int (n : ℤ) : P (.int n)
  order {a b : Json} (ha : P a) (hb : P b) (h : b.isBelow a = .ok false) : R a b

section Findings

variable {P : Json → Prop} {R : Json → Json → Prop} {name e m data : Json} {variants : List Json}

theorem each_eq_nil {check : Json → Findings} {items : List Json} (h : each check items = .ok []) :
    ∀ item ∈ items, check item = .ok [] := by
  induction items with
  | nil => exact List.forall_mem_nil _
  | cons item rest ih =>
    rw [each] at h
    obtain ⟨found, hfound, h⟩ := bind_ok h
    obtain ⟨more, hmore, h⟩ := bind_ok h
    obtain ⟨rfl, rfl⟩ := List.append_eq_nil_iff.mp (Except.ok.inj h)
    exact List.forall_mem_cons.mpr ⟨hfound, ih hmore⟩

theorem isPercentage_true {rate : Json} (h : isPercentage rate = .ok true) :
    AtMost (.int 0) rate ∧ AtMost rate (.int 100) := by
  rw [isPercentage] at h
  obtain ⟨b, hb, h⟩ := bind_ok h
  cases b with
  | true => exact ⟨hb, h⟩
  | false => cases h

theorem isOutOfRange_false {confidence : Json} (h : isOutOfRange confidence = .ok false) :
    confidence.isBelow (.int 0) = .ok false ∧ (Json.int 100).isBelow confidence = .ok false := by
  rw [isOutOfRange] at h
  obtain ⟨b, hb, h⟩ := bind_ok h
  cases b with
  | true => cases h
  | false => exact ⟨hb, h⟩

theorem metricsLaw (hadmits : Admits P R) (hm : P m) (h : metrics name m = .ok []) : MetricsLaw R m := by
  rw [metrics] at h
  obtain ⟨sessions, hsessions, h⟩ := bind_ok h
  obtain ⟨clicking, hclicking, h⟩ := bind_ok h
  obtain ⟨tooMany, hbelow, h⟩ := bind_ok h
  obtain ⟨rate, hrate, h⟩ := bind_ok h
  obtain ⟨inRange, hrange, h⟩ := bind_ok h
  obtain ⟨hmany, hin⟩ := List.append_eq_nil_iff.mp (Except.ok.inj h)
  obtain rfl := note_eq_nil.mp hmany
  rw [note_eq_nil, Bool.not_eq_false'] at hin
  subst hin
  have hsessions' := Json.member_ok hsessions
  have hclicking' := Json.member_ok hclicking
  exact ⟨sessions, clicking, rate, hsessions', hclicking', Json.member_ok hrate,
    hadmits.order (hadmits.part hm hclicking') (hadmits.part hm hsessions') hbelow,
    isPercentage_true hrange⟩

theorem cohortLaw (hadmits : Admits P R) {item : Json} (hitem : P item) (h : cohort item = .ok []) :
    CohortLaw R item := by
  rw [cohort] at h
  obtain ⟨about, -, h⟩ := bind_ok h
  obtain ⟨name, -, h⟩ := bind_ok h
  obtain ⟨failed, hfailed, h⟩ := bind_ok h
  obtain ⟨m, hm, h⟩ := bind_ok h
  obtain ⟨present, -, h⟩ := bind_ok h
  obtain ⟨-, rfl⟩ := Json.memberOr_ok hfailed
  obtain ⟨-, rfl⟩ := Json.memberOr_ok hm
  dsimp only at h
  split_ifs at h with hmissing
  · obtain ⟨found, hfound, h⟩ := bind_ok h
    obtain ⟨hnote, rfl⟩ := List.append_eq_nil_iff.mp (Except.ok.inj h)
    rw [note_eq_nil, Bool.not_eq_false'] at hnote
    constructor
    · intro failed hfailed
      rwa [hfailed] at hnote
    · cases hget : item.get? "metrics" with
      | none =>
        rw [hget] at hfound
        cases hfound
      | some m =>
        rw [hget] at hfound
        exact ⟨m, rfl, metricsLaw hadmits (hadmits.part hitem hget) hfound⟩
  · cases (List.append_eq_nil_iff.mp (Except.ok.inj h)).2

theorem rowLaw (hadmits : Admits P R) {row : Json} (hrow : P row) (h : comparisonRow row = .ok []) :
    RowLaw R row := by
  rw [comparisonRow] at h
  obtain ⟨sessions, hsessions, h⟩ := bind_ok h
  obtain ⟨some, hsome, h⟩ := bind_ok h
  have hsessions' := Json.member_ok hsessions
  refine ⟨sessions, hsessions', fun hpos => ?_⟩
  obtain rfl := Except.ok.inj (hsome.symm.trans hpos)
  obtain ⟨events, hevents, h⟩ := bind_ok h
  rw [ok_bind hsessions] at h
  obtain ⟨fewer, hfewer, h⟩ := bind_ok h
  cases fewer with
  | true =>
    obtain ⟨id, -, h⟩ := bind_ok h
    cases h
  | false =>
    have hevents' := Json.member_ok hevents
    exact ⟨events, hevents',
      hadmits.order (hadmits.part hrow hsessions') (hadmits.part hrow hevents') hfewer⟩

theorem variantLaw {v : Json} (hadmits : Admits P R) (hv : P v) (h : variant name v = .ok [])
    (hproper : ∀ users, v.get? "users" = some users →
      ∃ n, users.number? = some n ∧ n.isProper = true) : VariantLaw R v := by
  rw [variant] at h
  obtain ⟨users, husers, h⟩ := bind_ok h
  obtain ⟨none, hnone, h⟩ := bind_ok h
  have husers' := Json.member_ok husers
  have hsecond {empty : List Finding} (h : (do
        let above ← if ← (← v.member "users").isBelow (← v.member "conversions")
          then pure [Finding.conversionsAboveUsers name (← v.member "variant_id")] else pure []
        return empty ++ above : Findings) = .ok []) :
      empty = [] ∧ ∃ conversions, v.get? "conversions" = some conversions ∧ R conversions users := by
    rw [ok_bind husers] at h
    obtain ⟨conversions, hconversions, h⟩ := bind_ok h
    obtain ⟨more, hmore, h⟩ := bind_ok h
    cases more with
    | true =>
      obtain ⟨id, -, h⟩ := bind_ok h
      cases (List.append_eq_nil_iff.mp (Except.ok.inj h)).2
    | false =>
      have hconversions' := Json.member_ok hconversions
      exact ⟨(List.append_eq_nil_iff.mp (Except.ok.inj h)).1, conversions, hconversions',
        hadmits.order (hadmits.part hv hconversions') (hadmits.part hv husers') hmore⟩
  cases none with
  | true =>
    obtain ⟨id, -, h⟩ := bind_ok h
    cases (hsecond h).1
  | false =>
    obtain ⟨-, conversions, hconversions, hle⟩ := hsecond h
    obtain ⟨n, hn, hproper⟩ := hproper users husers'
    refine ⟨users, conversions, husers', hconversions, ?_, hle⟩
    rw [Json.isAtMost, Json.under_of_number? hn rfl, Except.ok.injEq, Number.decideOrder_lax,
      Number.not_le_iff_lt hproper rfl] at hnone
    rw [Json.isBelow, Json.under_of_number? rfl hn, Number.decideOrder_strict, hnone]

theorem isProper_of_same {n : Number} {w : Json} (h : Json.same (.number n) w = true) :
    n.isProper = true := by
  cases hw : w.number? with
  | some k =>
    rw [Json.same_of_number? rfl hw, Number.eqv_iff_position] at h
    exact h.1
  | none => cases w <;> simp_all [Json.same, Json.number?]

/-- Users add up to a number only if each of them is one. -/
theorem isProper_of_fits {users : List Json} {total : Number} {given v u : Json}
    (husers : variants.mapM (Json.member "users") = .ok users) (htotal : Json.sum users = .ok total)
    (hfits : Json.same (.number total) given = true) (hv : v ∈ variants) (hu : v.get? "users" = some u) :
    ∃ n, u.number? = some n ∧ n.isProper = true := by
  obtain ⟨u', hmem, hu'⟩ := exists_of_forall₂ (mapM_ok husers).flip hv
  obtain rfl : u = u' := Option.some.inj (hu.symm.trans (Json.member_ok hu'))
  exact Json.isProper_of_sum htotal (isProper_of_same hfits) u hmem

/-- What is missing or nothing has no variants, and neither has a text or an object. -/
theorem variants_eq_array {given : Option Json} {items : List Json}
    (h : (if (given.getD .null).isNothing then Json.array [] else given.getD .null).parts = .ok items)
    (hne : items ≠ []) (hcounts : ∀ v ∈ items, variant name v = .ok []) :
    given = some (.array items) := by
  split_ifs at h with hnothing
  · exact absurd (Except.ok.inj h).symm hne
  · cases given with
    | none => exact absurd rfl hnothing
    | some j =>
      refine congrArg some (Json.array_of_parts h hne fun s hs => ?_)
      obtain ⟨users, husers, -⟩ := bind_ok (hcounts _ hs)
      cases husers

theorem winnerLaw (h : winner name e variants = .ok []) : WinnerLaw e variants := by
  rw [winner] at h
  obtain ⟨w, hw, h⟩ := bind_ok h
  refine ⟨w, Json.member_ok hw, ?_⟩
  split at h
  · exact .inl rfl
  · obtain ⟨ids, hids, h⟩ := bind_ok h
    obtain ⟨known, hknown, h⟩ := bind_ok h
    obtain ⟨significant, hsignificant, h⟩ := bind_ok h
    obtain ⟨hunknown, hchance⟩ := List.append_eq_nil_iff.mp (Except.ok.inj h)
    rw [note_eq_nil, Bool.not_eq_false'] at hunknown hchance
    rw [Bool.not_eq_true'] at hchance
    subst hunknown
    refine .inr ⟨⟨significant, Json.member_ok hsignificant, hchance⟩, ?_⟩
    rw [Json.isAmong] at hknown
    split_ifs at hknown
    obtain ⟨id, hid, hsame⟩ := List.any_eq_true.mp (Except.ok.inj hknown)
    obtain ⟨v, hv, hvid⟩ := mapM_ok_mem hids hid
    obtain ⟨id', hid', hvid⟩ := bind_ok hvid
    split_ifs at hvid
    obtain rfl := Except.ok.inj hvid
    exact ⟨v, hv, id', Json.member_ok hid', hsame⟩

theorem experimentLaw (hadmits : Admits P R) (he : P e) (h : experiment e = .ok []) :
    ExperimentLaw R e := by
  rw [experiment] at h
  obtain ⟨name, -, h⟩ := bind_ok h
  obtain ⟨present, -, h⟩ := bind_ok h
  dsimp only at h
  split_ifs at h with hmissing
  · rw [results] at h
    obtain ⟨failed, hfailed, h⟩ := bind_ok h
    obtain ⟨given, hgiven, h⟩ := bind_ok h
    obtain ⟨count, hcount, h⟩ := bind_ok h
    obtain ⟨variants, hvariants, h⟩ := bind_ok h
    obtain ⟨counts, hcounts, h⟩ := bind_ok h
    obtain ⟨users, husers, h⟩ := bind_ok h
    obtain ⟨total, htotal, h⟩ := bind_ok h
    obtain ⟨stated, hstated, h⟩ := bind_ok h
    obtain ⟨confidence, hconfidence, h⟩ := bind_ok h
    obtain ⟨outside, houtside, h⟩ := bind_ok h
    obtain ⟨won, hwon, h⟩ := bind_ok h
    obtain ⟨status, -, h⟩ := bind_ok h
    have h := Except.ok.inj h
    simp only [List.append_eq_nil_iff, note_eq_nil, Bool.not_eq_false',
      decide_eq_false_iff_not, not_lt] at h
    obtain ⟨⟨⟨⟨⟨⟨hanswered, htwo⟩, rfl⟩, hfits⟩, rfl⟩, rfl⟩, -⟩ := h
    obtain ⟨-, rfl⟩ := Json.memberOr_ok hgiven
    obtain ⟨_, hitems, rfl⟩ := map_ok hcount
    obtain rfl := Except.ok.inj (hvariants.symm.trans hitems)
    have hget : e.get? "variants" = some (.array variants) :=
      variants_eq_array hvariants (by rintro rfl; simp at htwo) (each_eq_nil hcounts)
    have hvariant (v : Json) (hv : v ∈ variants) : VariantLaw R v :=
      variantLaw hadmits (hadmits.item (hadmits.part he hget) hv) (each_eq_nil hcounts v hv)
        fun _ => isProper_of_fits husers htotal hfits hv
    have hadded : UsersLaw e variants :=
      ⟨users, total, stated, (mapM_ok husers).imp fun _ _ => Json.member_ok, htotal,
        Json.member_ok hstated, hfits⟩
    obtain ⟨hlow, hhigh⟩ := isOutOfRange_false houtside
    have hconfidence' := Json.member_ok hconfidence
    have hpart := hadmits.part he hconfidence'
    exact ⟨⟨failed, Json.member_ok hfailed, hanswered⟩,
      ⟨variants, hget, htwo, hvariant, hadded, winnerLaw hwon⟩,
      ⟨confidence, hconfidence', hadmits.order (hadmits.int 0) hpart hlow,
        hadmits.order hpart (hadmits.int 100) hhigh⟩⟩
  · cases Except.ok.inj h

/-- A part of the document is a list once its first part is looked into. -/
theorem eq_array_of_each {check : Json → Findings} {j : Json} {items : List Json}
    (htext : ∀ s, check (.text s) ≠ .ok []) (hparts : j.parts = .ok items) (hne : items ≠ [])
    (h : each check items = .ok []) : j = .array items :=
  Json.array_of_parts hparts hne fun s hs => htext s (each_eq_nil h _ hs)

theorem sound_of_audit (hadmits : Admits P R) (hdata : P data) (h : audit data = .ok []) :
    Sound R data := by
  rw [audit] at h
  obtain ⟨missing, hmissing, h⟩ := bind_ok h
  split_ifs at h with hnone
  · rw [body] at h
    obtain ⟨cohorts, hcohorts, h⟩ := bind_ok h
    obtain ⟨items, hitems, h⟩ := bind_ok h
    obtain ⟨inCohorts, hinCohorts, h⟩ := bind_ok h
    obtain ⟨comparison, hcomparison, h⟩ := bind_ok h
    obtain ⟨rows, hrows, h⟩ := bind_ok h
    obtain ⟨count, hcount, h⟩ := bind_ok h
    obtain ⟨rowItems, hrowItems, h⟩ := bind_ok h
    obtain ⟨inRows, hinRows, h⟩ := bind_ok h
    obtain ⟨experiments, hexperiments, h⟩ := bind_ok h
    obtain ⟨results, hresults, h⟩ := bind_ok h
    obtain ⟨inExperiments, hinExperiments, h⟩ := bind_ok h
    have h := Except.ok.inj h
    simp only [List.append_eq_nil_iff, note_eq_nil, bne_eq_false_iff_eq] at h
    obtain ⟨⟨⟨⟨⟨hsomeCohorts, rfl⟩, rfl⟩, rfl⟩, hsomeExperiments⟩, rfl⟩ := h
    have hcohortItems := Json.parts_ne_nil hitems hsomeCohorts
    have hrowItems' : rowItems ≠ [] := by
      rw [Json.size, hrowItems] at hrows
      rw [Json.size, hitems] at hcount
      rintro rfl
      exact hcohortItems (List.length_eq_zero_iff.mp
        ((Except.ok.inj hcount).trans (Except.ok.inj hrows).symm))
    obtain rfl := eq_array_of_each (fun s h => by cases h) hitems hcohortItems hinCohorts
    obtain rfl := eq_array_of_each (fun s h => by cases h) hrowItems hrowItems' hinRows
    obtain rfl := eq_array_of_each (fun s h => by cases h) hresults
      (Json.parts_ne_nil hresults hsomeExperiments) hinExperiments
    have hcohorts' := Json.member_ok hcohorts
    have hcomparison' := Json.member_ok hcomparison
    have hexperiments' := Json.member_ok hexperiments
    exact ⟨
      ⟨items, hcohorts', fun item hitem => cohortLaw hadmits
        (hadmits.item (hadmits.part hdata hcohorts') hitem) (each_eq_nil hinCohorts item hitem)⟩,
      ⟨rowItems, hcomparison', fun row hrow => rowLaw hadmits
        (hadmits.item (hadmits.part hdata hcomparison') hrow) (each_eq_nil hinRows row hrow)⟩,
      ⟨results, hexperiments', fun e he => experimentLaw hadmits
        (hadmits.item (hadmits.part hdata hexperiments') he) (each_eq_nil hinExperiments e he)⟩⟩
  · obtain rfl := Except.ok.inj h
    cases hnone rfl

theorem admits_wellFormed : Admits Json.WellFormed AtMostOrNaN where
  part hj h := hj.get? h
  item h hv := h.item hv
  int _ := .number _
  order ha hb h := Json.atMost_of_not_below ha hb h

theorem admits_proper : Admits (fun j => j.WellFormed ∧ ¬j.HoldsNaN) AtMost where
  part hj h := ⟨hj.1.get? h, fun hnan => hj.2 (hnan.get? h)⟩
  item h hv := ⟨h.1.item hv, fun hnan => h.2 (.array hv hnan)⟩
  int _ := ⟨.number _, by simp⟩
  order ha hb h := (Json.atMost_of_not_below ha.1 hb.1 h).resolve_right (not_or.mpr ⟨ha.2, hb.2⟩)

/-- A document without findings is sound but for numbers that are none, which pass wherever the audit
asks only whether a value is too great or too small. -/
theorem audit_sound (hdata : data.WellFormed) (h : audit data = .ok []) :
    Sound AtMostOrNaN data ∧ (¬data.HoldsNaN → Sound AtMost data) :=
  ⟨sound_of_audit admits_wellFormed hdata h,
    fun hproper => sound_of_audit admits_proper ⟨hdata, hproper⟩ h⟩

end Findings

section Dashboard

/-- One cohort, its row of the comparison and one experiment. -/
def dashboard (clicking events conversions confidence : Json) : Json :=
  .object [
    ("cohorts", .array [.object [
      ("cohort", .object [("id", .text "all")]),
      ("metrics", .object [("click_rate", .int 25), ("sessions", .int 40),
        ("sessions_with_clicks", clicking), ("total_clicks", .int 30), ("total_events", .int 60),
        ("total_scrolls", .int 0)])]]),
    ("comparison", .array [.object [
      ("cohort_id", .text "all"), ("sessions", .int 40), ("events", events)]]),
    ("experiments", .array [.object [
      ("experiment_id", .text "checkout"), ("confidence_level", confidence),
      ("has_enough_data", .bool true), ("is_significant", .bool true),
      ("minimum_sample_size", .int 100), ("query_failed", .bool false),
      ("status_message", .text "winner found"), ("total_users", .int 20),
      ("variants", .array [
        .object [("variant_id", .text "control"), ("users", .int 10), ("conversions", .int 1)],
        .object [("variant_id", .text "treatment"), ("users", .int 10),
          ("conversions", conversions)]]),
      ("winner_variant_id", .text "treatment")]])]

variable {clicking events conversions confidence : Json}

theorem dashboard_wellFormed (hclicking : clicking.WellFormed) (hevents : events.WellFormed)
    (hconversions : conversions.WellFormed) (hconfidence : confidence.WellFormed) :
    (dashboard clicking events conversions confidence).WellFormed := by
  simp [dashboard, Entries.names, Json.WellFormed.text, Json.WellFormed.number, Json.WellFormed.bool,
    hclicking, hevents, hconversions, hconfidence]

theorem audit_sound_checkout :
    (dashboard (.int 10) (.int 60) (.int 7) (.float 95.5)).WellFormed ∧
      audit (dashboard (.int 10) (.int 60) (.int 7) (.float 95.5)) = .ok [] ∧
      Sound AtMost (dashboard (.int 10) (.int 60) (.int 7) (.float 95.5)) := by
  have hwell : (dashboard (.int 10) (.int 60) (.int 7) (.float 95.5)).WellFormed :=
    dashboard_wellFormed (.number _) (.number _) (.number _) (.number _)
  have hconfidence : (Number.float 95.5).isProper = true := by decide
  exact ⟨hwell, rfl, (audit_sound hwell rfl).2 (by simp [dashboard, hconfidence])⟩

theorem dashboard_laws (h : Sound AtMost (dashboard clicking events conversions confidence)) :
    AtMost clicking (.int 40) ∧ AtMost (.int 40) events ∧ AtMost conversions (.int 10) ∧
      AtMost confidence (.int 100) := by
  obtain ⟨⟨cohorts, hcohorts, hcohort⟩, ⟨rows, hrows, hrow⟩, ⟨results, hresults, hresult⟩⟩ := h
  obtain rfl := Json.array.inj (Option.some.inj hcohorts)
  obtain rfl := Json.array.inj (Option.some.inj hrows)
  obtain rfl := Json.array.inj (Option.some.inj hresults)
  rw [List.forall_mem_singleton] at hcohort hrow hresult
  obtain ⟨m, hm, sessions, clicks, rate, hsessions, hclicks, -, hclicking, -⟩ := hcohort.metrics
  obtain ⟨rowSessions, hrowSessions, hevents⟩ := hrow
  obtain ⟨variants, hvariants, -, hvariant, -⟩ := hresult.variants
  obtain ⟨c, hc, -, hconfidence⟩ := hresult.confidence
  obtain rfl := Option.some.inj hm
  obtain rfl := Option.some.inj hsessions
  obtain rfl := Option.some.inj hclicks
  obtain rfl := Option.some.inj hrowSessions
  obtain rfl := Json.array.inj (Option.some.inj hvariants)
  obtain rfl := Option.some.inj hc
  obtain ⟨e, he, hevents⟩ := hevents rfl
  obtain ⟨users, converted, husers, hconverted, -, hle⟩ :=
    hvariant _ (List.mem_cons_of_mem _ List.mem_cons_self)
  obtain rfl := Option.some.inj he
  obtain rfl := Option.some.inj husers
  obtain rfl := Option.some.inj hconverted
  exact ⟨hclicking, hevents, hle, hconfidence⟩

/-- What is no number passes as the clicking sessions, the events, the conversions and the confidence. -/
theorem nan_passes_audit :
    (audit (dashboard (.float (0.0 / 0.0)) (.int 60) (.int 7) (.float 95.5)) = .ok [] ∧
      ¬Sound AtMost (dashboard (.float (0.0 / 0.0)) (.int 60) (.int 7) (.float 95.5))) ∧
    (audit (dashboard (.int 10) (.float (0.0 / 0.0)) (.int 7) (.float 95.5)) = .ok [] ∧
      ¬Sound AtMost (dashboard (.int 10) (.float (0.0 / 0.0)) (.int 7) (.float 95.5))) ∧
    (audit (dashboard (.int 10) (.int 60) (.float (0.0 / 0.0)) (.float 95.5)) = .ok [] ∧
      ¬Sound AtMost (dashboard (.int 10) (.int 60) (.float (0.0 / 0.0)) (.float 95.5))) ∧
    audit (dashboard (.int 10) (.int 60) (.int 7) (.float (0.0 / 0.0))) = .ok [] ∧
      ¬Sound AtMost (dashboard (.int 10) (.int 60) (.int 7) (.float (0.0 / 0.0))) := by
  refine ⟨⟨rfl, fun h => ?_⟩, ⟨rfl, fun h => ?_⟩, ⟨rfl, fun h => ?_⟩, ⟨rfl, fun h => ?_⟩⟩
  · cases (dashboard_laws h).1
  · cases (dashboard_laws h).2.1
  · cases (dashboard_laws h).2.2.1
  · cases (dashboard_laws h).2.2.2

end Dashboard

end Audit

namespace CommandLine

theorem audit_of_passed {data : Json} (h : (CommandRun.ofPrinting (auditDocument data)).exitCode = 0) :
    audit data = .ok [] := by
  unfold auditDocument at h
  cases hfound : audit data with
  | error f =>
    rw [hfound] at h
    cases h
  | ok found =>
    cases found with
    | nil => rfl
    | cons f rest =>
      rw [hfound] at h
      cases h

/-- The command is content only with a document that it has read and that is sound. -/
theorem sound_of_passed {around : Surroundings} {o : ValidateOptions}
    (h : (CommandRun.ofPrinting (validate around o)).exitCode = 0) :
    ∃ text data, around.look o.data = .document text ∧ Json.read? text = some data ∧
      Audit.Sound Audit.AtMostOrNaN data := by
  unfold validate at h
  cases hlook : around.look o.data with
  | document text =>
    rw [hlook] at h
    cases hread : Json.read? text with
    | some data =>
      simp only [hread] at h
      exact ⟨text, data, rfl, hread, Audit.sound_of_audit Audit.admits_wellFormed
        (Json.wellFormed_of_read? hread) (audit_of_passed h)⟩
    | none =>
      simp only [hread] at h
      cases h
  | _ =>
    rw [hlook] at h
    cases h

end CommandLine

end CohortAnalytics
