import CohortAnalytics.Proofs.Cohort.Accounting
import CohortAnalytics.Proofs.Query.Groups

/-!
Counts of a cohort as its rules and its window change. More rules and a narrower window leave fewer
events, and so no count is higher; the order of the rules is nothing to the events.
-/

namespace CohortAnalytics

open Inquiry

theorem Predicate.holds_append (p q : Predicate) (e : StoredEvent) :
    Predicate.holds (p ++ q) e = (p.holds e && q.holds e) := List.all_append

theorem Predicate.holds_perm {p q : Predicate} (h : List.Perm p q) (e : StoredEvent) :
    p.holds e = q.holds e := h.all_eq

namespace Compiled

variable {rules rules' more : List RawRule} {first second : Compiled}

theorem ofRules?_eq_some_iff {p : Predicate} :
    (∃ compiled, ofRules? rules = some compiled ∧ compiled.predicate = p) ↔
      (∀ raw ∈ rules, ¬raw.BeyondRange) ∧ p = rules.filterMap RawRule.condition? := by
  constructor
  · rintro ⟨compiled, h, rfl⟩
    refine ⟨fun raw hraw hbeyond => ?_, (ofRulesFrom?_eq h).2.1⟩
    rw [ofRules?_eq_none_iff.mpr ⟨raw, hraw, hbeyond⟩] at h
    cases h
  · rintro ⟨hrange, rfl⟩
    cases h : ofRules? rules with
    | none =>
      obtain ⟨raw, hraw, hbeyond⟩ := ofRules?_eq_none_iff.mp h
      exact absurd hbeyond (hrange raw hraw)
    | some compiled => exact ⟨compiled, rfl, (ofRulesFrom?_eq h).2.1⟩

theorem ofRules?_append (hfirst : ofRules? rules = some first) (hsecond : ofRules? more = some second) :
    ∃ both, ofRules? (rules ++ more) = some both ∧
      both.predicate = first.predicate ++ second.predicate := by
  obtain ⟨hrange, hpredicate⟩ := ofRules?_eq_some_iff.mp ⟨first, hfirst, rfl⟩
  obtain ⟨hrange', hpredicate'⟩ := ofRules?_eq_some_iff.mp ⟨second, hsecond, rfl⟩
  rw [hpredicate, hpredicate', ← List.filterMap_append]
  exact ofRules?_eq_some_iff.mpr ⟨List.forall_mem_append.mpr ⟨hrange, hrange'⟩, rfl⟩

theorem ofRules?_perm (hperm : rules'.Perm rules) (hfirst : ofRules? rules = some first) :
    ∃ other, ofRules? rules' = some other ∧ other.predicate.Perm first.predicate := by
  obtain ⟨hrange, hpredicate⟩ := ofRules?_eq_some_iff.mp ⟨first, hfirst, rfl⟩
  obtain ⟨other, hother, hsame⟩ := ofRules?_eq_some_iff.mpr
    ⟨fun raw hraw => hrange raw (hperm.mem_iff.mp hraw), rfl⟩
  refine ⟨other, hother, ?_⟩
  rw [hsame, hpredicate]
  exact hperm.filterMap _

end Compiled

theorem Measure.value_mono {rows rows' : List StoredEvent} (h : rows.Sublist rows') {m : Measure}
    (hm : m ∈ cohortSummary) :
    ∃ n n' : ℕ, m.value rows = .int n ∧ m.value rows' = .int n' ∧ n ≤ n' := by
  have hclicks := h.filter (isType clickType)
  simp only [cohortSummary, List.mem_cons, List.not_mem_nil, or_false] at hm
  rcases hm with rfl | rfl | rfl | rfl | rfl
  · exact ⟨_, _, rfl, rfl, sessionCount_mono h.subset⟩
  · exact ⟨_, _, rfl, rfl, h.length_le⟩
  · exact ⟨_, _, rfl, rfl, sessionCount_mono hclicks.subset⟩
  · exact ⟨_, _, rfl, rfl, hclicks.length_le⟩
  · exact ⟨_, _, rfl, rfl, (h.filter (isType scrollType)).length_le⟩

namespace Scope

variable {inner outer : Scope} {start finish start' finish' : Instant}

theorem events_sublist (hsite : inner.site = outer.site)
    (hinside : Set.Icc start.micros finish.micros ⊆ Set.Icc start'.micros finish'.micros)
    (hpredicate : ∀ e, Predicate.holds inner.predicate e = true →
      Predicate.holds outer.predicate e = true) (t : EventTable) :
    (inner.events start finish t).Sublist (outer.events start' finish' t) := by
  apply List.monotone_filter_right
  intro e he
  simp only [owns, Instant.le, Bool.and_eq_true, beq_iff_eq, decide_eq_true_eq] at he ⊢
  exact ⟨⟨he.1.1.trans hsite, hinside he.1.2⟩, hpredicate e he.2⟩

end Scope

/-- More rules in a narrower window never raise a count, and the order of the rules changes none. -/
theorem cohortSummary_antitone {rules more : List RawRule} {first second : Compiled}
    (hfirst : Compiled.ofRules? rules = some first)
    (hsecond : Compiled.ofRules? more = some second) {inner outer : Window}
    {start finish start' finish' : Instant} {now : Instant}
    (hinner : inner.resolve? now = some (start, finish))
    (houter : outer.resolve? now = some (start', finish'))
    (hinside : Set.Icc start.micros finish.micros ⊆ Set.Icc start'.micros finish'.micros)
    (site : String) (t : EventTable) :
    ∃ both fewer counts, Compiled.ofRules? (rules ++ more) = some both ∧
      (cohortSummary { site, window := inner, now, predicate := both.predicate }).Gives t fewer ∧
      (cohortSummary { site, window := outer, now, predicate := first.predicate }).Gives t counts ∧
      (∀ m ∈ Measure.cohortSummary, ∃ n n' : ℕ,
        fewer.get m.name = .int n ∧ counts.get m.name = .int n' ∧ n ≤ n') ∧
      ∀ rules', rules'.Perm rules → ∃ other, Compiled.ofRules? rules' = some other ∧
        (cohortSummary { site, window := outer, now, predicate := other.predicate }).Gives t counts := by
  have hnames := Measure.nodup_cohortSummary
  obtain ⟨both, hboth, hpredicate⟩ := Compiled.ofRules?_append hfirst hsecond
  let narrow : Scope := { site, window := inner, now, predicate := both.predicate }
  let wide : Scope := { site, window := outer, now, predicate := first.predicate }
  have hsublist : (narrow.events start finish t).Sublist (wide.events start' finish' t) := by
    refine Scope.events_sublist (show narrow.site = wide.site from rfl) hinside (fun e he => ?_) t
    change Predicate.holds both.predicate e = true at he
    rw [hpredicate, Predicate.holds_append, Bool.and_eq_true] at he
    exact he.1
  refine ⟨both, _, _, hboth, summary_gives narrow hnames hinner t,
    summary_gives wide hnames houter t, fun m hm => ?_, fun rules' hperm => ?_⟩
  · rw [AggregateRow.get_counting hnames hm, AggregateRow.get_counting hnames hm]
    exact Measure.value_mono hsublist hm
  · obtain ⟨other, hother, hpermuted⟩ := Compiled.ofRules?_perm hperm hfirst
    -- Not only the counts are the same: the events are.
    have hevents : Scope.events { wide with predicate := other.predicate } start' finish' t =
        wide.events start' finish' t := by
      apply List.filter_congr
      intro e _
      rw [Scope.owns, Scope.owns, Predicate.holds_perm hpermuted]
    refine ⟨other, hother, ?_⟩
    rw [← hevents]
    exact summary_gives _ hnames houter t

section Mobile

def microsecond (n : ℕ) (h : n < 2) : Instant := ⟨n, h.trans (by decide)⟩

/-- From the first microsecond of the calendar to the first or to the second. -/
def upTo (n : ℕ) (h : n < 2) : Window :=
  ⟨some (microsecond 0 Nat.two_pos), some (microsecond n h), 1, Int.one_pos, by simp [microsecond]⟩

def landing : RawRule := .checked ⟨"page_path", "equals", .text "/", none⟩

def onMobile : RawRule := .checked ⟨"device_type", "equals", .text "mobile", none⟩

/-- Two clicks on the landing page, the later of which is not on a mobile. -/
def clicks : EventTable where
  rows := [
    { AggregateShape.clickAt "s" with
      session := "v", pagePath := some "/", deviceType := some "mobile" },
    { AggregateShape.clickAt "s" with
      session := "w", timestamp := microsecond 1 (by decide), pagePath := some "/" }]

theorem clicks_of_summary {p : Predicate} {n : ℕ} {h : n < 2} {row : AggregateRow}
    (hrow : (cohortSummary ⟨"s", upTo n h, default, p⟩).Gives clicks row) :
    row.get "total_clicks" = .int ((Scope.events ⟨"s", upTo n h, default, p⟩
      (microsecond 0 (by decide)) (microsecond n h) clicks).filter
        (Measure.isType clickType)).length := by
  rw [hrow.unique (summary_gives _ Measure.nodup_cohortSummary rfl clicks)]
  exact AggregateRow.get_counting (m := .totalClicks) Measure.nodup_cohortSummary
    (by simp [Measure.cohortSummary])

/-- One rule that is compiled, one that is skipped and an earlier end leave one click of two. -/
theorem cohortSummary_antitone_mobile : ∃ first both fewer counts,
    Compiled.ofRules? [landing] = some first ∧
      Compiled.ofRules? ([landing] ++ [.loose .null, onMobile]) = some both ∧
      (cohortSummary ⟨"s", upTo 0 (by decide), default, both.predicate⟩).Gives clicks fewer ∧
      (cohortSummary ⟨"s", upTo 1 (by decide), default, first.predicate⟩).Gives clicks counts ∧
      fewer.get "total_clicks" = .int 1 ∧ counts.get "total_clicks" = .int 2 ∧
      ∀ m ∈ Measure.cohortSummary, ∃ n n' : ℕ,
        fewer.get m.name = .int n ∧ counts.get m.name = .int n' ∧ n ≤ n' := by
  have hfirst : Compiled.ofRules? [landing] = some ⟨[.textIs .pagePath "/"], []⟩ := rfl
  have hsecond : Compiled.ofRules? [.loose .null, onMobile] =
      some ⟨[.textIs .deviceType "mobile"], [⟨0, "?", .malformed 1⟩]⟩ := rfl
  have hwindow (n : ℕ) (h : n < 2) : (upTo n h).resolve? default =
      some (microsecond 0 (by decide), microsecond n h) := rfl
  obtain ⟨both, fewer, counts, hboth, hfewer, hcounts, hle, -⟩ :=
    cohortSummary_antitone hfirst hsecond (hwindow 0 (by decide)) (hwindow 1 (by decide))
      (Set.Icc_subset_Icc_right (by simp [microsecond])) "s" clicks
  refine ⟨_, both, fewer, counts, hfirst, hboth, hfewer, hcounts, ?_, ?_, hle⟩
  · obtain rfl := Option.some.inj hboth
    rw [clicks_of_summary hfewer]
    decide +kernel
  · rw [clicks_of_summary hcounts]
    decide +kernel

end Mobile

end CohortAnalytics
