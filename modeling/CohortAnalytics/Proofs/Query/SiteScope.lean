import CohortAnalytics.Query.Shapes
import Mathlib

/-!
Every query of an aggregate is about one site: it finds the same on the events of that site alone.
-/

namespace CohortAnalytics

def EventTable.ofSite (site : String) (t : EventTable) : EventTable :=
  ⟨t.rows.filter fun e => e.site == site⟩

namespace Filter

/-- A filter that is a single test, without alternatives. -/
def IsTest (f : Filter) : Prop := ∃ t, f.meaning = some (.test t)

theorem isTest_ofTest (text : String) (params : List Param) (t : EventTest) :
    (ofTest text params t).IsTest := ⟨t, rfl⟩

theorem foldl_followedBy_test (first : List EventTest) (tests : List EventTest) :
    (tests.map Clause.test).foldl Clause.followedBy [first] = [first ++ tests] := by
  induction tests generalizing first with
  | nil => simp
  | cons t tests ih =>
    rw [List.map_cons, List.foldl_cons, Clause.test, Clause.followedBy, ih]
    simp

theorem mapM_meaning_of_isTest {filters : List Filter} (h : ∀ f ∈ filters, f.IsTest) :
    ∃ tests : List EventTest, filters.mapM Filter.meaning = some (tests.map Clause.test) := by
  induction filters with
  | nil => exact ⟨[], rfl⟩
  | cons f filters ih =>
    obtain ⟨t, ht⟩ := h f (by simp)
    obtain ⟨tests, htests⟩ := ih fun g hg => h g (List.mem_cons_of_mem _ hg)
    exact ⟨t :: tests, by simp [List.mapM_cons, ht, htests]⟩

/-- The site's filter stands first in the only alternative. -/
theorem joined?_site (site : String) {filters : List Filter} (h : ∀ f ∈ filters, f.IsTest) :
    ∃ tests, joined? (Filter.site site :: filters) = some [.siteIs site :: tests] := by
  obtain ⟨tests, htests⟩ := mapM_meaning_of_isTest h
  refine ⟨tests, ?_⟩
  have hsite : (Filter.site site).meaning = some (.test (.siteIs site)) := rfl
  have hall : (Filter.site site :: filters).mapM Filter.meaning =
      some ((EventTest.siteIs site :: tests).map Clause.test) := by
    simp [List.mapM_cons, hsite, htests]
  rw [joined?, hall, Option.pure_def, Option.bind_eq_bind, Option.bind_some, foldl_followedBy_test]
  simp

end Filter

namespace Query

def IsOf (site : String) (q : Query) : Prop :=
  ∀ c, Filter.joined? q.filters = some c → ∀ e, c.holds e = true → e.site = site

theorem selected_ofSite {site : String} {c : Clause} (h : ∀ e, c.holds e = true → e.site = site)
    (t : EventTable) : selected c (t.ofSite site) = selected c t := by
  rw [selected, selected, EventTable.ofSite, List.filter_filter]
  apply List.filter_congr
  intro e _
  by_cases hc : c.holds e = true
  · simp [h e hc]
  · simp [hc]

theorem run_ofSite {site : String} {q : Query} (h : q.IsOf site) (t : EventTable) :
    q.run (t.ofSite site) = q.run t := by
  unfold run
  cases hc : Filter.joined? q.filters with
  | none => rfl
  | some c => simp only [answer, selected_ofSite (h c hc)]

end Query

namespace Store

variable {q : Query} {t : EventTable}

theorem table_ok {rows : List StoreRow} (h : q.run t = .ok rows) :
    Store.table q t = (.rows rows, t) := by
  rw [Store.table, h]

theorem table_error {f : StoreFailure} (h : q.run t = .error f) :
    Store.table q t = (.failure (.store f), t) := by
  rw [Store.table, h]

end Store

namespace Inquiry

variable {α β : Type}

/-- Whatever it is answered, a computation asks of no other site. -/
def AsksOf (site : String) : Inquiry α → Prop
  | .done _ => True
  | .ask q next => q.IsOf site ∧ ∀ rows, (next rows).AsksOf site

theorem asksOf_pure (site : String) (a : α) : (pure a : Inquiry α).AsksOf site := trivial

theorem asksOf_ofExcept (site : String) (r : Except Failure α) : (ofExcept r).AsksOf site := trivial

theorem asksOf_query {site : String} {q : Query} (h : q.IsOf site) : (query q).AsksOf site :=
  ⟨h, fun _ => trivial⟩

theorem asksOf_bind {site : String} {i : Inquiry α} {f : α → Inquiry β} (hi : i.AsksOf site)
    (hf : ∀ a, (f a).AsksOf site) : (i >>= f).AsksOf site := by
  induction i with
  | done r =>
    cases r with
    | ok a => exact hf a
    | error e => trivial
  | ask q next ih => exact ⟨hi.1, fun rows => ih rows (hi.2 rows)⟩

theorem run_table (i : Inquiry α) (t : EventTable) :
    (∃ r, (i.run Store.table t).outcome = .finished r) ∧ (i.run Store.table t).state = t := by
  induction i with
  | done r => exact ⟨⟨r, rfl⟩, rfl⟩
  | ask q next ih =>
    cases hq : q.run t with
    | ok rows =>
      simp only [run, Store.table_ok hq]
      exact ih rows
    | error f =>
      simp only [run, Store.table_error hq]
      exact ⟨⟨_, rfl⟩, trivial⟩

/-- What it comes to depends on the events of its site only. -/
theorem outcome_ofSite {site : String} {i : Inquiry α} (h : i.AsksOf site) (t : EventTable) :
    (i.run Store.table (t.ofSite site)).outcome = (i.run Store.table t).outcome := by
  induction i with
  | done r => rfl
  | ask q next ih =>
    have hrun := Query.run_ofSite h.1 t
    cases hq : q.run t with
    | ok rows =>
      simp only [run, Store.table_ok hq, Store.table_ok (hrun.trans hq)]
      exact ih rows (h.2 rows)
    | error f => simp only [run, Store.table_error hq, Store.table_error (hrun.trans hq)]

end Inquiry

namespace AggregateShape

theorem query_isOf (shape : AggregateShape) (h : ∀ f ∈ shape.filters, f.IsTest) (site : String)
    (start finish : Instant) (p : Predicate) : (shape.query site start finish p).IsOf site := by
  have htests : ∀ f ∈ Filter.window start finish :: (shape.filters ++ [Filter.predicate p]),
      f.IsTest := by
    intro f hf
    rcases List.mem_cons.mp hf with rfl | hf
    · exact Filter.isTest_ofTest _ _ _
    · rcases List.mem_append.mp hf with hf | hf
      · exact h f hf
      · rw [List.mem_singleton.mp hf]
        exact ⟨_, rfl⟩
  -- No other filter brings an alternative in which the site's test would be missing.
  obtain ⟨tests, hjoined⟩ := Filter.joined?_site site htests
  intro c hc e he
  rw [show (shape.query site start finish p).filters = Filter.site site ::
    Filter.window start finish :: (shape.filters ++ [Filter.predicate p]) from rfl, hjoined] at hc
  rw [← Option.some.inj hc, Clause.holds, anyHolds, anyHolds, Bool.or_false, allHold,
    Bool.and_eq_true, EventTest.holds, beq_iff_eq] at he
  exact he.1

end AggregateShape

theorem aggregate_asksOf (scope : Scope) {shape : AggregateShape}
    (h : ∀ f ∈ shape.filters, f.IsTest) : (aggregate scope shape).AsksOf scope.site := by
  apply Inquiry.asksOf_bind (Inquiry.asksOf_ofExcept _ _)
  intro _
  apply Inquiry.asksOf_bind (Inquiry.asksOf_ofExcept _ _)
  intro bounds
  apply Inquiry.asksOf_bind (Inquiry.asksOf_query (shape.query_isOf h _ _ _ _))
  intro rows
  exact Inquiry.asksOf_ofExcept _ _

theorem summary_asksOf (measures : List Measure) (scope : Scope) :
    (summary measures scope).AsksOf scope.site := by
  apply Inquiry.asksOf_bind (aggregate_asksOf scope (by simp))
  intro rows
  exact Inquiry.asksOf_pure _ _

theorem topPages_asksOf (limit : Option ℤ) (scope : Scope) :
    (topPages limit scope).AsksOf scope.site := by
  have htests : ∀ f ∈ [Filter.hasPath], f.IsTest := by
    simp [Filter.hasPath, Filter.isTest_ofTest]
  apply Inquiry.asksOf_bind (aggregate_asksOf scope htests)
  intro rows
  exact Inquiry.asksOf_pure _ _

theorem deviceBreakdown_asksOf (scope : Scope) : (deviceBreakdown scope).AsksOf scope.site := by
  apply Inquiry.asksOf_bind (aggregate_asksOf scope (by simp))
  intro rows
  exact Inquiry.asksOf_pure _ _

theorem variantCounts_asksOf (experiment goalEvent : String) (scope : Scope) :
    (variantCounts experiment goalEvent scope).AsksOf scope.site := by
  have htests : ∀ f ∈ [Filter.takesPart experiment], f.IsTest := by
    simp [Filter.takesPart, Filter.isTest_ofTest]
  apply Inquiry.asksOf_bind (aggregate_asksOf { scope with predicate := [] } htests)
  intro rows
  exact Inquiry.asksOf_pure _ _

theorem goalBreakdown_asksOf (experiment : String) (scope : Scope) :
    (goalBreakdown experiment scope).AsksOf scope.site := by
  have htests : ∀ f ∈ [Filter.typeIs goalType, Filter.payloadIs "experiment_id" experiment],
      f.IsTest := by
    simp [Filter.typeIs, Filter.payloadIs, Filter.isTest_ofTest]
  apply Inquiry.asksOf_bind (aggregate_asksOf { scope with predicate := [] } htests)
  intro rows
  exact Inquiry.asksOf_pure _ _

end CohortAnalytics
