import CohortAnalytics.Proofs.Query.Layout
import CohortAnalytics.Query.Shapes

/-!
The texts that a computation sends to the store. Each is settled by the shape of its query and by the
columns and operators of its predicate; what the store replies only settles how many are sent.
-/

namespace CohortAnalytics

def Run.texts {σ α : Type} (run : Run σ α) : List String :=
  run.asked.map fun q => q.statement.text

def Run.Succeeds {σ α : Type} (run : Run σ α) : Prop := ∃ a, run.outcome = .finished (.ok a)

namespace Inquiry

variable {α β σ : Type}

/-- One computation after another: a failure or a stall of the first is that of both. -/
theorem run_bind (store : Store σ) (i : Inquiry α) (f : α → Inquiry β) (s : σ) :
    (i >>= f).run store s =
      match i.run store s with
      | ⟨.finished (.ok a), asked, s'⟩ =>
        let next := (f a).run store s'
        ⟨next.outcome, asked ++ next.asked, next.state⟩
      | ⟨.finished (.error e), asked, s'⟩ => ⟨.finished (.error e), asked, s'⟩
      | ⟨.stalled, asked, s'⟩ => ⟨.stalled, asked, s'⟩ := by
  induction i generalizing s with
  | done r => cases r <;> rfl
  | ask q next ih =>
    have hask : (Inquiry.ask q next >>= f) = .ask q fun rows => next rows >>= f := rfl
    rw [hask, run, run]
    cases hreply : store q s with
    | mk reply s' =>
      cases reply with
      | rows rows =>
        dsimp only
        rw [ih rows s']
        cases hnext : (next rows).run store s' with
        | mk outcome asked s'' =>
          cases outcome with
          | finished r => cases r <;> rfl
          | stalled => rfl
      | failure e => rfl
      | stalled => rfl

/-- A computation gives a value only after its first part has given one. -/
theorem run_bind_ok {store : Store σ} {i : Inquiry α} {f : α → Inquiry β} {s : σ} {b : β}
    (h : ((i >>= f).run store s).outcome = .finished (.ok b)) :
    ∃ a, (i.run store s).outcome = .finished (.ok a) ∧
      ((f a).run store (i.run store s).state).outcome = .finished (.ok b) := by
  rw [run_bind] at h
  generalize i.run store s = run at h ⊢
  obtain ⟨outcome, asked, s'⟩ := run
  cases outcome with
  | finished r =>
    cases r with
    | ok a => exact ⟨a, rfl, h⟩
    | error e => cases h
  | stalled => cases h

theorem run_pure_ok {store : Store σ} {a b : α} {s : σ}
    (h : ((pure a : Inquiry α).run store s).outcome = .finished (.ok b)) : a = b :=
  Except.ok.inj (Outcome.finished.inj h)

theorem run_ofExcept_ok {store : Store σ} {r : Except Failure α} {s : σ} {a : α}
    (h : ((ofExcept r).run store s).outcome = .finished (.ok a)) : r = .ok a := by
  injection h

/-- The texts that are sent are the first of these, and all of them if nothing fails. -/
def Sends (i : Inquiry α) (texts : List String) : Prop :=
  ∀ (σ : Type) (store : Store σ) (s : σ), (i.run store s).texts <+: texts ∧
    ((i.run store s).Succeeds → (i.run store s).texts = texts)

theorem sends_pure (a : α) : (pure a : Inquiry α).Sends [] := fun _ _ _ =>
  ⟨List.nil_prefix, fun _ => rfl⟩

theorem sends_ofExcept (r : Except Failure α) : (ofExcept r).Sends [] := fun _ _ _ =>
  ⟨List.nil_prefix, fun _ => rfl⟩

theorem sends_query (q : Query) : (query q).Sends [q.statement.text] := by
  intro σ store s
  have htexts : ((query q).run store s).texts = [q.statement.text] := by
    rw [query, run]
    split <;> rfl
  exact ⟨htexts ▸ List.prefix_refl _, fun _ => htexts⟩

theorem sends_bind {i : Inquiry α} {f : α → Inquiry β} {texts more : List String}
    (hi : i.Sends texts) (hf : ∀ a, (f a).Sends more) : (i >>= f).Sends (texts ++ more) := by
  intro σ store s
  obtain ⟨hstart, hall⟩ := hi σ store s
  rw [run_bind]
  generalize i.run store s = run at hstart hall
  obtain ⟨outcome, asked, s'⟩ := run
  cases outcome with
  | finished r =>
    cases r with
    | ok a =>
      obtain ⟨hnext, hnextAll⟩ := hf a σ store s'
      have htexts : asked.map (fun q => q.statement.text) = texts := hall ⟨a, rfl⟩
      have hsplit : Run.texts ⟨((f a).run store s').outcome, asked ++ ((f a).run store s').asked,
          ((f a).run store s').state⟩ = texts ++ ((f a).run store s').texts := by
        rw [Run.texts, List.map_append, htexts, Run.texts]
      dsimp only
      rw [hsplit]
      exact ⟨(List.prefix_append_right_inj texts).mpr hnext, fun hok => by rw [hnextAll hok]⟩
    | error e => exact ⟨hstart.trans (List.prefix_append _ _), fun ⟨b, hb⟩ => by cases hb⟩
  | stalled => exact ⟨hstart.trans (List.prefix_append _ _), fun ⟨b, hb⟩ => by cases hb⟩

theorem sends_after {r : Except Failure α} {f : α → Inquiry β} {texts : List String}
    (hf : ∀ a, (f a).Sends texts) : (ofExcept r >>= f).Sends texts := by
  exact sends_bind (sends_ofExcept r) hf

theorem sends_before {i : Inquiry α} {f : α → Inquiry β} {texts : List String} (hi : i.Sends texts)
    (hf : ∀ a, (f a).Sends []) : (i >>= f).Sends texts := by
  rw [← List.append_nil texts]
  exact sends_bind hi hf

/-- A computation that fails before it asks anything sends no text of whatever follows. -/
theorem sends_error_bind (e : Failure) (f : α → Inquiry β) (texts : List String) :
    (ofExcept (.error e) >>= f).Sends texts := fun _ _ _ =>
  ⟨List.nil_prefix, fun ⟨b, hb⟩ => by cases hb⟩

end Inquiry

/-- The columns of a predicate, each with its operator. -/
abbrev Outline := List (String × String)

namespace Outline

def conditionText (column op : String) : String :=
  Condition.withLiterals column op (if op = "BETWEEN" then ["?", "?"] else ["?"])

def text (o : Outline) : String :=
  Predicate.joined (o.map fun (column, op) => conditionText column op)

end Outline

theorem Condition.sql_eq (c : Condition) : c.sql = Outline.conditionText c.column c.op := by
  have hplaceholders : (c.params.map fun _ => "?") =
      if c.op = "BETWEEN" then ["?", "?"] else ["?"] := by
    cases c with
    | number column test => cases test <;> rfl
    | _ => rfl
  rw [sql, hplaceholders, Outline.conditionText]

namespace Predicate

def outline (p : Predicate) : Outline := p.map fun c => (c.column, c.op)

theorem sql_eq_text (p : Predicate) : p.sql = p.outline.text := by
  rw [sql, Outline.text, outline, List.map_map]
  congr 1
  exact List.map_congr_left fun c _ => c.sql_eq

end Predicate

namespace AggregateShape

/-- The statement of a shape over conditions, of which only the columns and operators are known. -/
def statementOver (shape : AggregateShape) (o : Outline) : Statement where
  groups := shape.grouping.fragments
  measures := shape.measures.map fun m => (m.name, m.fragment)
  filters := [(Filter.site "").fragment, (Filter.window default default).fragment] ++
    shape.filters.map Filter.fragment ++ [⟨"(" ++ o.text ++ ")", []⟩]
  orderBy := shape.orderBy
  limit := shape.limit

def textOver (shape : AggregateShape) (o : Outline) : String := (shape.statementOver o).text

theorem query_text (shape : AggregateShape) (site : String) (start finish : Instant)
    (p : Predicate) : (shape.query site start finish p).statement.text = shape.textOver p.outline := by
  apply Statement.text_congr
  simp [Statement.erased, Query.statement, query, statementOver, Fragment.erased, Filter.site,
    Filter.window, Filter.ofTest, Filter.predicate, Filter.predicateFragment, p.sql_eq_text]

end AggregateShape

theorem aggregate_sends (scope : Scope) (shape : AggregateShape) :
    (aggregate scope shape).Sends [shape.textOver scope.predicate.outline] := by
  apply Inquiry.sends_after
  intro _
  apply Inquiry.sends_after
  intro bounds
  rw [← shape.query_text scope.site bounds.1 bounds.2]
  apply Inquiry.sends_before (Inquiry.sends_query _)
  intro rows
  exact Inquiry.sends_ofExcept _

theorem summary_sends (measures : List Measure) (scope : Scope) :
    (summary measures scope).Sends
      [AggregateShape.textOver { measures := measures } scope.predicate.outline] :=
  Inquiry.sends_before (aggregate_sends _ _) fun _ => Inquiry.sends_pure _

def pagesShape (limit : Option ℤ) : AggregateShape :=
  { grouping := .byPage, measures := [.views, .sessions], filters := [Filter.hasPath],
    orderBy := some "views", limit }

theorem topPages_sends (limit : Option ℤ) (scope : Scope) :
    (topPages limit scope).Sends [(pagesShape limit).textOver scope.predicate.outline] :=
  Inquiry.sends_before (aggregate_sends _ _) fun _ => Inquiry.sends_pure _

def devicesShape : AggregateShape := { grouping := .byDevice, measures := [.sessions] }

theorem deviceBreakdown_sends (scope : Scope) :
    (deviceBreakdown scope).Sends [devicesShape.textOver scope.predicate.outline] :=
  Inquiry.sends_before (aggregate_sends _ _) fun _ => Inquiry.sends_pure _

def variantsShape (experiment goalEvent : String) : AggregateShape :=
  { grouping := .byVariant experiment, measures := [.users, .conversions experiment goalEvent],
    filters := [Filter.takesPart experiment] }

/-- Neither the experiment nor its goal event enters the text. -/
theorem variantsShape_textOver (experiment goalEvent : String) :
    (variantsShape experiment goalEvent).textOver [] = (variantsShape "" "").textOver [] :=
  Statement.text_congr rfl

theorem variantCounts_sends (experiment goalEvent : String) (scope : Scope) :
    (variantCounts experiment goalEvent scope).Sends [(variantsShape "" "").textOver []] := by
  rw [← variantsShape_textOver experiment goalEvent]
  exact Inquiry.sends_before (aggregate_sends _ _) fun _ => Inquiry.sends_pure _

def goalsShape (experiment : String) : AggregateShape :=
  { grouping := .byGoal, measures := [.goalConversions, .totalRevenue],
    filters := [Filter.typeIs goalType, Filter.payloadIs "experiment_id" experiment] }

theorem goalsShape_textOver (experiment : String) :
    (goalsShape experiment).textOver [] = (goalsShape "").textOver [] :=
  Statement.text_congr rfl

theorem goalBreakdown_sends (experiment : String) (scope : Scope) :
    (goalBreakdown experiment scope).Sends [(goalsShape "").textOver []] := by
  rw [← goalsShape_textOver experiment]
  exact Inquiry.sends_before (aggregate_sends _ _) fun _ => Inquiry.sends_pure _

end CohortAnalytics
