import CohortAnalytics.Proofs.Query.Answers
import CohortAnalytics.Proofs.Query.Filters
import CohortAnalytics.Service.CohortNumbers

/-!
The events that an aggregate is about, and how its groups share them out: every event is in the
group of its key and in no other, so that the groups have as many events as there are, and together
all of their sessions. A query that does not tell the events of one table from those of another, row
by row, comes to the same on both.
-/

namespace CohortAnalytics

namespace Measure

variable {rows rows' : List StoredEvent}

theorem nodup_cohortSummary : (cohortSummary.map name).Nodup := by decide

theorem sessionCount_eq (rows : List StoredEvent) :
    sessionCount rows = (rows.map StoredEvent.session).toFinset.card := by
  rw [sessionCount, ← List.toFinset_card_of_nodup (nodup_eraseDups _)]
  congr 1
  ext s
  simp

theorem sessionCount_mono (h : ∀ e ∈ rows, e ∈ rows') : sessionCount rows ≤ sessionCount rows' := by
  rw [sessionCount_eq, sessionCount_eq]
  apply Finset.card_le_card
  intro s hs
  rw [List.mem_toFinset, List.mem_map] at hs ⊢
  obtain ⟨e, he, rfl⟩ := hs
  exact ⟨e, h e he, rfl⟩

theorem sessionCount_filter (p : StoredEvent → Bool) (rows : List StoredEvent) :
    sessionCount (rows.filter p) ≤ sessionCount rows :=
  sessionCount_mono fun _ he => (List.mem_filter.mp he).1

theorem sessionCount_le (rows : List StoredEvent) : sessionCount rows ≤ rows.length := by
  rw [sessionCount_eq]
  exact (List.toFinset_card_le _).trans_eq (List.length_map _)

theorem sessionCount_pos {e : StoredEvent} (h : e ∈ rows) : 0 < sessionCount rows := by
  rw [sessionCount_eq, Finset.card_pos]
  exact ⟨e.session, List.mem_toFinset.mpr (List.mem_map_of_mem h)⟩

end Measure

namespace AggregateRow

variable {key : Json} {measures : List Measure} {events : List StoredEvent} {m : Measure}

/-- The row of a group: every measure on its events. -/
def counting (key : Json) (measures : List Measure) (events : List StoredEvent) : AggregateRow :=
  ⟨key, measures.map fun m => (m.name, m.value events)⟩

theorem get_counting (h : (measures.map Measure.name).Nodup) (hm : m ∈ measures) :
    (counting key measures events).get m.name = m.value events := by
  have hnames : (Entries.names (measures.map fun m => (m.name, m.value events))).Nodup := by
    rw [Entries.names, List.map_map]
    exact h
  have hfound := Entries.find?_of_mem hnames
    (List.mem_map_of_mem (f := fun m : Measure => (m.name, m.value events)) hm)
  rw [get, getD, counting, hfound, Option.getD_some]

theorem whole_counting (h : (measures.map Measure.name).Nodup) (hm : m ∈ measures) {n : ℤ}
    (hvalue : m.value events = .int n) : (counting key measures events).whole m.name = .ok n := by
  rw [whole, get_counting h hm, hvalue]
  rfl

end AggregateRow

open Inquiry

variable {scope : Scope} {shape : AggregateShape} {start finish : Instant} {t : EventTable}

/-- The events of a site in a window that satisfy the predicate. -/
def Scope.events (scope : Scope) (start finish : Instant) (t : EventTable) : List StoredEvent :=
  t.rows.filter (scope.owns start finish)

theorem Scope.mem_events {e : StoredEvent} : e ∈ scope.events start finish t ↔
    e ∈ t.rows ∧ e.site = scope.site ∧ start.micros ≤ e.timestamp.micros ∧
      e.timestamp.micros ≤ finish.micros ∧ Predicate.holds scope.predicate e = true := by
  simp [events, owns, Instant.le, and_assoc]

/-- Whether the filter, asked alone, lets an event through. -/
def Filter.lets (f : Filter) (e : StoredEvent) : Bool := f.meaning.any fun c => c.holds e

namespace Filter

theorem all_lets {filters : List Filter} {cs : List Clause}
    (h : filters.mapM Filter.meaning = some cs) (e : StoredEvent) :
    (filters.all fun f => f.lets e) = cs.all fun c => c.holds e := by
  induction filters generalizing cs with
  | nil =>
    obtain rfl : [] = cs := Option.some.inj h
    rfl
  | cons f rest ih =>
    rw [List.mapM_cons] at h
    obtain ⟨c, hc, h⟩ := Option.bind_eq_some_iff.mp h
    obtain ⟨others, hothers, h⟩ := Option.bind_eq_some_iff.mp h
    obtain rfl : c :: others = cs := Option.some.inj h
    rw [List.all_cons, List.all_cons, ih hothers, lets, hc, Option.any_some]

theorem joined?_of_isTest (h : ∀ f ∈ shape.filters, f.IsTest) :
    ∃ c, joined? (shape.query scope.site start finish scope.predicate).filters = some c ∧
      ∀ e, c.holds e = (scope.owns start finish e && shape.filters.all fun f => f.lets e) := by
  obtain ⟨tests, htests⟩ := mapM_meaning_of_isTest h
  refine ⟨_, AggregateShape.joined?_query htests, fun e => ?_⟩
  rw [all_lets htests, Scope.holds_clause _ _ _ (by simp [Clause.test])]

end Filter

namespace AggregateShape

/-- The events of the scope that the filters of the shape let through. -/
def events (shape : AggregateShape) (scope : Scope) (start finish : Instant) (t : EventTable) :
    List StoredEvent :=
  (scope.events start finish t).filter fun e => shape.filters.all fun f => f.lets e

/-- The groups that the rows of an aggregate are about, in their order. -/
def answered (shape : AggregateShape) (scope : Scope) (start finish : Instant) (t : EventTable) :
    List Query.Group :=
  (shape.query scope.site start finish scope.predicate).answered (shape.events scope start finish t)

def rowOf (shape : AggregateShape) (g : Query.Group) : AggregateRow :=
  .counting (Query.keyJson g.key) shape.measures g.rows

theorem aggregate_gives_answered (scope : Scope) {shape : AggregateShape} (hshape : shape.IsSound)
    (hwindow : scope.window.resolve? scope.now = some (start, finish)) (t : EventTable) :
    (aggregate scope shape).Gives t ((shape.answered scope start finish t).map fun g =>
      (Query.keyJson g.key, shape.rowOf g)) := by
  obtain ⟨c, hc, hgives⟩ := aggregate_gives scope hshape hwindow t
  obtain ⟨d, hd, hholds⟩ := Filter.joined?_of_isTest hshape.filters
  obtain rfl : c = d := Option.some.inj (hc.symm.trans hd)
  have hselected : Query.selected c t = shape.events scope start finish t := by
    rw [events, Scope.events, List.filter_filter]
    exact List.filter_congr fun e _ => (hholds e).trans (Bool.and_comm _ _)
  rw [answered, ← hselected]
  exact hgives

theorem isGroupOf_answered {g : Query.Group} (h : g ∈ shape.answered scope start finish t) :
    Query.IsGroupOf shape.grouping (shape.events scope start finish t) g := Query.mem_answered h

/-- An aggregate is answered only for a window and a limit that the store takes. -/
theorem of_gives_aggregate (h : ∀ f ∈ shape.filters, f.IsTest) {out : AggregateRows}
    (hgives : (aggregate scope shape).Gives t out) :
    shape.checkOrder = .ok () ∧ shape.limit.all Query.isLimit = true ∧
      ∃ start finish, scope.window.resolve? scope.now = some (start, finish) := by
  obtain ⟨⟨⟩, hchecked, hgives⟩ := hgives.bind_inv
  obtain ⟨⟨start, finish⟩, hresolved, hgives⟩ := hgives.bind_inv
  obtain ⟨rows, hrows, -⟩ := hgives.bind_inv
  refine ⟨run_ofExcept_ok hchecked, ?_, start, finish, ?_⟩
  · obtain ⟨c, hc, -⟩ := @Filter.joined?_of_isTest scope shape start finish h
    have hrun := run_of_gives_query hrows
    rw [Query.run, hc] at hrun
    dsimp only at hrun
    split_ifs at hrun with hlimit
    exact hlimit
  · have hbounds := run_ofExcept_ok hresolved
    unfold resolved at hbounds
    split at hbounds
    · rename_i bounds hwindow
      rw [hwindow, Except.ok.inj hbounds]
    · cases hbounds

end AggregateShape

namespace Measure

variable {rows rows' : List StoredEvent}

theorem sessionCount_append (rows rows' : List StoredEvent) :
    sessionCount (rows ++ rows') ≤ sessionCount rows + sessionCount rows' := by
  rw [sessionCount_eq, sessionCount_eq, sessionCount_eq, List.map_append, List.toFinset_append]
  exact Finset.card_union_le _ _

theorem sessionCount_flatMap (gs : List Query.Group) :
    sessionCount (gs.flatMap Query.Group.rows) ≤
      (gs.map fun g => sessionCount g.rows).sum := by
  induction gs with
  | nil => exact le_rfl
  | cons g gs ih =>
    rw [List.flatMap_cons, List.map_cons, List.sum_cons]
    exact (sessionCount_append _ _).trans (Nat.add_le_add_left ih _)

end Measure

namespace Query

variable {gs : List Group}

/-- Events shared out by their keys. -/
theorem sum_length_filter {α : Type} [BEq α] [LawfulBEq α] {keys : List α} (hkeys : keys.Nodup)
    {key : StoredEvent → α} {events : List StoredEvent} (h : ∀ e ∈ events, key e ∈ keys) :
    (keys.map fun k => (events.filter fun e => key e == k).length).sum = events.length := by
  induction keys generalizing events with
  | nil =>
    obtain rfl := List.eq_nil_iff_forall_not_mem.mpr fun e he => List.not_mem_nil (h e he)
    rfl
  | cons k rest ih =>
    obtain ⟨hout, hrest⟩ := List.nodup_cons.mp hkeys
    -- What the first key leaves is shared out by the others.
    have hothers := @ih hrest (events.filter fun e => !(key e == k)) fun e he => by
      obtain ⟨hmem, hne⟩ := List.mem_filter.mp he
      rcases List.mem_cons.mp (h e hmem) with heq | hin
      · simp [heq] at hne
      · exact hin
    have hsame : ∀ j ∈ rest, ((events.filter fun e => !(key e == k)).filter fun e => key e == j) =
        events.filter fun e => key e == j := by
      intro j hj
      rw [List.filter_filter]
      apply List.filter_congr
      intro e _
      have hne : j ≠ k := fun heq => hout (heq ▸ hj)
      by_cases hkey : key e = j
      · simp [hkey, hne]
      · simp [hkey]
    have hsplit := List.length_eq_length_filter_add (l := events) fun e => key e == k
    rw [List.map_cons, List.sum_cons, hsplit, ← hothers]
    congr 2
    exact List.map_congr_left fun j hj => by rw [hsame j hj]

/-- The groups have as many events as there are. -/
theorem sum_length_groups (grouping : Grouping) (events : List StoredEvent) :
    ((groups grouping events).map fun g => g.rows.length).sum = events.length := by
  by_cases hnone : grouping = .none
  · simp [groups, hnone]
  have hrows : ((groups grouping events).map fun g => g.rows.length) =
      ((groups grouping events).map Group.key).map fun key =>
        (events.filter fun e => grouping.key e == key).length := by
    rw [List.map_map]
    exact List.map_congr_left fun g hg => congrArg List.length (isGroupOf hg).rows
  rw [hrows]
  exact sum_length_filter (nodup_keys_groups _ _) fun e he =>
    (mem_keys_groups hnone _).mpr ⟨e, he, rfl⟩

theorem mem_flatMap_groups {grouping : Grouping} {events : List StoredEvent} {e : StoredEvent}
    (he : e ∈ events) : e ∈ (groups grouping events).flatMap Group.rows := by
  by_cases hnone : grouping = .none
  · simpa [groups, hnone] using he
  have hkey := (mem_keys_groups hnone (grouping.key e)).mpr ⟨e, he, rfl⟩
  obtain ⟨g, hg, hgkey⟩ := List.mem_map.mp hkey
  refine List.mem_flatMap.mpr ⟨g, hg, ?_⟩
  rw [(isGroupOf hg).rows, List.mem_filter, hgkey, beq_self_eq_true]
  exact ⟨he, rfl⟩

/-- A session of several groups is counted in each of them, but none is left out. -/
theorem sessionCount_le_sum_groups (grouping : Grouping) (events : List StoredEvent) :
    Measure.sessionCount events ≤
      ((groups grouping events).map fun g => Measure.sessionCount g.rows).sum :=
  (Measure.sessionCount_mono fun _ => mem_flatMap_groups).trans (Measure.sessionCount_flatMap _)

theorem answered_subperm (q : Query) (events : List StoredEvent) :
    (q.answered events).Subperm (groups q.grouping events) :=
  (q.answered_sublist events).subperm.trans (q.ordered_perm _).subperm

theorem answered_perm {q : Query} (h : q.limit = none) (events : List StoredEvent) :
    (q.answered events).Perm (groups q.grouping events) := by
  rw [answered, h]
  exact q.ordered_perm _

theorem sum_length_le {grouping : Grouping} {events : List StoredEvent}
    (h : gs.Subperm (groups grouping events)) :
    (gs.map fun g => g.rows.length).sum ≤ events.length := by
  rw [← sum_length_groups grouping events]
  obtain ⟨gs', hperm, hsub⟩ := h
  rw [← (hperm.map _).sum_eq]
  exact (hsub.map _).sum_le_sum fun _ _ => Nat.zero_le _

end Query

theorem AggregateShape.nodup_keys (shape : AggregateShape) (scope : Scope) (start finish : Instant)
    (t : EventTable) : ((shape.answered scope start finish t).map Query.Group.key).Nodup :=
  Query.nodup_keys_answered _ _

/-- Without a limit there is a group for the key of each event. -/
theorem AggregateShape.mem_keys (hlimit : shape.limit = none) (hsome : shape.grouping ≠ .none)
    (key : List (Option String)) :
    key ∈ (shape.answered scope start finish t).map Query.Group.key ↔
      ∃ e ∈ shape.events scope start finish t, shape.grouping.key e = key := by
  rw [← Query.mem_keys_groups hsome]
  exact ((Query.answered_perm hlimit _).map Query.Group.key).mem_iff

/-- The totals over the events of the scope, as one row without a key. -/
theorem summary_gives (scope : Scope) {measures : List Measure} {start finish : Instant}
    (hmeasures : (measures.map Measure.name).Nodup)
    (hwindow : scope.window.resolve? scope.now = some (start, finish)) (t : EventTable) :
    (summary measures scope).Gives t (.counting .null measures (scope.events start finish t)) := by
  have hshape : AggregateShape.IsSound { measures := measures } :=
    ⟨by simp, rfl, rfl, by simpa [Grouping.width, Grouping.fragments] using hmeasures⟩
  have hevents : AggregateShape.events { measures := measures } scope start finish t =
      scope.events start finish t := List.filter_eq_self.mpr fun _ _ => rfl
  have hrows := AggregateShape.aggregate_gives_answered scope hshape hwindow t
  rw [AggregateShape.answered, hevents] at hrows
  exact hrows.bind (gives_pure _)

theorem filter_of_forall₂ {α β : Type} {R : α → β → Prop} {p : α → Bool} {q : β → Bool} {xs : List α}
    {ys : List β} (h : List.Forall₂ R xs ys) (hpq : ∀ x y, R x y → p x = q y) :
    List.Forall₂ R (xs.filter p) (ys.filter q) :=
  List.rel_filter (fun x y hxy => Bool.eq_iff_iff.mp (hpq x y hxy)) h

variable {R : StoredEvent → StoredEvent → Prop} {t' : EventTable} {rows rows' : List StoredEvent}

namespace Query

variable {q : Query}

/-- The query does not tell related events apart. -/
structure Blind (q : Query) (R : StoredEvent → StoredEvent → Prop) : Prop where
  holds : ∀ c, Filter.joined? q.filters = some c → ∀ e e', R e e' → c.holds e = c.holds e'
  key : ∀ e e', R e e' → q.grouping.key e = q.grouping.key e'
  value : ∀ m ∈ q.measures, ∀ rows rows', List.Forall₂ R rows rows' → m.value rows = m.value rows'
  unordered : q.orderBy = none

theorem Blind.row (h : q.Blind R) (key : List (Option String)) (hrows : List.Forall₂ R rows rows') :
    q.row ⟨key, rows⟩ = q.row ⟨key, rows'⟩ := by
  have hvalues : (q.measures.map fun m => (m.name, Json.number (m.value rows))) =
      q.measures.map fun m => (m.name, Json.number (m.value rows')) :=
    List.map_congr_left fun m hm => by rw [h.value m hm _ _ hrows]
  rw [Query.row, Query.row]
  dsimp only
  rw [hvalues]

theorem Blind.groups (h : q.Blind R) (hrows : List.Forall₂ R rows rows') :
    (groups q.grouping rows).map q.row = (groups q.grouping rows').map q.row := by
  rw [Query.groups, Query.groups]
  split_ifs
  · rw [List.map_singleton, List.map_singleton, h.row [] hrows]
  · have hkeys : (rows.map fun e => q.grouping.key e) = rows'.map fun e => q.grouping.key e :=
      map_eq_of_forall₂ (hrows.imp h.key)
    rw [hkeys, List.map_map, List.map_map]
    refine List.map_congr_left fun key _ => h.row key (filter_of_forall₂ hrows fun e e' he => ?_)
    rw [h.key e e' he]

theorem Blind.run (h : q.Blind R) (ht : List.Forall₂ R t.rows t'.rows) : q.run t = q.run t' := by
  rw [Query.run, Query.run]
  cases hjoined : Filter.joined? q.filters with
  | none => rfl
  | some c =>
    have hrows := h.groups (filter_of_forall₂ ht (h.holds c hjoined))
    have hanswer : q.answer c t = q.answer c t' := by
      have hordered (gs : List Group) : q.ordered gs = gs := by rw [ordered, h.unordered]; rfl
      rw [answer, answer, hordered, hordered, selected, selected, hrows]
    dsimp only
    rw [hanswer]

end Query

/-- What a computation comes to says what comes of it afterwards. -/
theorem Inquiry.outcome_bind_pure {α β : Type} {i : Inquiry α}
    (h : (i.run Store.table t).outcome = (i.run Store.table t').outcome) (f : α → β) :
    ((i >>= fun a => pure (f a)).run Store.table t).outcome =
      ((i >>= fun a => pure (f a)).run Store.table t').outcome := by
  rw [run_bind, run_bind]
  generalize i.run Store.table t = run at h
  generalize i.run Store.table t' = run' at h
  obtain ⟨outcome, asked, state⟩ := run
  obtain ⟨outcome', asked', state'⟩ := run'
  obtain rfl : outcome = outcome' := h
  cases outcome with
  | finished r => cases r <;> rfl
  | stalled => rfl

theorem aggregate_agrees {scope : Scope} {shape : AggregateShape}
    (h : ∀ start finish, (shape.query scope.site start finish scope.predicate).Blind R)
    (ht : List.Forall₂ R t.rows t'.rows) :
    ((aggregate scope shape).run Store.table t).outcome =
      ((aggregate scope shape).run Store.table t').outcome := by
  rw [aggregate]
  cases shape.checkOrder with
  | error e => rfl
  | ok _ =>
    cases AggregateShape.resolved scope with
    | error e => rfl
    | ok bounds => exact Inquiry.outcome_query ((h bounds.1 bounds.2).run ht) _

end CohortAnalytics
