import CohortAnalytics.Proofs.Query.SiteScope
import CohortAnalytics.Proofs.Query.Sent
import CohortAnalytics.Proofs.Query.Written

/-!
Filters that callers add to an aggregate. They stand without brackets between the scope and the
predicate, so an OR in one of them takes in events of any site; in brackets they only narrow the
scope.
-/

namespace CohortAnalytics

namespace Clause

theorem followedBy_test_nil {a : Clause} (h : a ≠ []) : a.followedBy [[]] = a := by
  induction a with
  | nil => exact absurd rfl h
  | cons ts a ih =>
    cases a with
    | nil => simp [followedBy]
    | cons us a => rw [followedBy_cons_cons, ih (List.cons_ne_nil us a)]

theorem test_nil_followedBy {a : Clause} (h : a ≠ []) : followedBy [[]] a = a := by
  cases a with
  | nil => exact absurd rfl h
  | cons ts a => rfl

theorem foldl_followedBy {a : Clause} (h : a ≠ []) (cs : List Clause) :
    cs.foldl followedBy a = a.followedBy (cs.foldl followedBy [[]]) := by
  induction cs generalizing a with
  | nil => exact (followedBy_test_nil h).symm
  | cons c cs ih =>
    rw [List.foldl_cons, List.foldl_cons, ih (followedBy_ne_nil h c),
      ih (followedBy_ne_nil (by simp) c), ← followedBy_assoc, ← followedBy_assoc, followedBy_test_nil h]

theorem allHold_append (e : StoredEvent) (ts us : List EventTest) :
    allHold e (ts ++ us) = (allHold e ts && allHold e us) := by
  induction ts with
  | nil => simp [allHold]
  | cons t ts ih => simp [allHold, ih, Bool.and_assoc]

theorem holds_single (ts : List EventTest) (e : StoredEvent) : holds [ts] e = allHold e ts := by
  simp [holds, anyHolds]

/-- Clauses without alternatives have to hold one and all. -/
theorem foldl_followedBy_single {cs : List Clause} (h : ∀ c ∈ cs, c.length = 1) (a : List EventTest) :
    ∃ b, cs.foldl followedBy [a] = [b] ∧
      ∀ e, allHold e b = (allHold e a && cs.all fun c => c.holds e) := by
  induction cs generalizing a with
  | nil => exact ⟨a, rfl, fun e => by simp⟩
  | cons c cs ih =>
    obtain ⟨ts, rfl⟩ := List.length_eq_one_iff.mp (h c (by simp))
    obtain ⟨b, hb, hholds⟩ := ih (fun d hd => h d (List.mem_cons_of_mem _ hd)) (a ++ ts)
    refine ⟨b, hb, fun e => ?_⟩
    rw [hholds, allHold_append, List.all_cons, holds_single, Bool.and_assoc]

def inBrackets (c : Clause) : Clause := .test (.grouped c)

theorem holds_inBrackets (c : Clause) (e : StoredEvent) : c.inBrackets.holds e = c.holds e := by
  simp [inBrackets, test, holds, anyHolds, allHold, EventTest.holds]

end Clause

/-- A filter as a caller writes it. -/
structure WrittenFilter where
  text : String
  params : List Json

namespace WrittenFilter

def filter (w : WrittenFilter) : Filter := Filter.written w.text w.params

def bracketed (w : WrittenFilter) : WrittenFilter := ⟨"(" ++ w.text ++ ")", w.params⟩

/-- The texts as they stand one after the other in a statement. -/
def joined (ws : List WrittenFilter) : WrittenFilter :=
  ⟨" AND ".intercalate (ws.map text), ws.flatMap params⟩

def Reads (w : WrittenFilter) (c : Clause) : Prop := Written.clause? w.text w.params = some c

variable {w : WrittenFilter} {ws : List WrittenFilter} {c : Clause} {cs : List Clause}

theorem Reads.ne_nil (h : w.Reads c) : c ≠ [] :=
  Written.readClause?_ne_nil (Written.clause?_eq_some.mp h)

theorem Reads.bracketed (h : w.Reads c) : w.bracketed.Reads c.inBrackets :=
  Written.clause?_bracketed h

theorem joined_reads (hw : w.Reads c) (h : List.Forall₂ Reads ws cs) :
    (joined (w :: ws)).Reads (cs.foldl Clause.followedBy c) := by
  induction h generalizing w c with
  | nil => simpa [joined, Reads] using hw
  | cons hd _ ih =>
    rename_i v d vs ds _
    have hboth : (joined [w, v]).Reads (c.followedBy d) := by
      simpa [joined, Reads, String.intercalate_cons_cons] using Written.clause?_and hw hd
    have htext : joined (w :: v :: vs) = joined (joined [w, v] :: vs) := by
      cases vs <;> simp [joined, String.intercalate_cons_cons, String.append_assoc]
    rw [htext]
    exact ih hboth

theorem mapM_meaning (h : List.Forall₂ Reads ws cs) :
    (ws.map filter).mapM Filter.meaning = some cs := by
  induction h with
  | nil => rfl
  | cons hw _ ih =>
    rename_i w c ws cs hrest
    have hmeaning : w.filter.meaning = some c := hw
    simp [List.mapM_cons, hmeaning, ih]

end WrittenFilter

def EventTable.only (p : StoredEvent → Bool) (t : EventTable) : EventTable := ⟨t.rows.filter p⟩

theorem Query.selected_all (t : EventTable) : selected [[]] t = t.rows :=
  List.filter_eq_self.mpr fun _ _ => rfl

theorem Query.run_only {q : Query} {c : Clause} (h : Filter.joined? q.filters = some c)
    (t : EventTable) : q.run t = { q with filters := [] }.run (t.only c.holds) := by
  have hall : selected [[]] (t.only c.holds) = selected c t := selected_all _
  have hnone : Filter.joined? [] = some [[]] := rfl
  rw [run, run, h, hnone]
  dsimp only
  rw [answer, answer, hall]
  rfl

theorem Inquiry.outcome_query {α : Type} {q q' : Query} {t t' : EventTable} (h : q.run t = q'.run t')
    (f : List StoreRow → Except Failure α) :
    ((query q >>= fun rows => ofExcept (f rows)).run Store.table t).outcome =
      ((query q' >>= fun rows => ofExcept (f rows)).run Store.table t').outcome := by
  rw [run_bind, run_bind, query, query, run, run]
  cases hrun : q.run t with
  | ok rows =>
    rw [Store.table_ok hrun, Store.table_ok (h ▸ hrun)]
    rfl
  | error e => rw [Store.table_error hrun, Store.table_error (h ▸ hrun)]

namespace Scope

/-- The filters of an aggregate as one clause: the tests of the scope, what the callers' filters are
read as when they are joined, and the predicate. -/
def clause (scope : Scope) (start finish : Instant) (cs : List Clause) : Clause :=
  (Clause.followedBy [[.siteIs scope.site, .inWindow start finish]]
    (cs.foldl Clause.followedBy [[]])).followedBy [[.selected scope.predicate]]

def owns (scope : Scope) (start finish : Instant) (e : StoredEvent) : Bool :=
  e.site == scope.site && (start.le e.timestamp && e.timestamp.le finish) &&
    Predicate.holds scope.predicate e

theorem holds_clause (scope : Scope) (start finish : Instant) {cs : List Clause}
    (h : ∀ c ∈ cs, c.length = 1) (e : StoredEvent) :
    (scope.clause start finish cs).holds e =
      (scope.owns start finish e && cs.all fun c => c.holds e) := by
  obtain ⟨b, hb, hholds⟩ := Clause.foldl_followedBy_single h []
  rw [clause, hb]
  simp only [Clause.followedBy, Clause.holds_single, Clause.allHold_append, hholds]
  simp [allHold, EventTest.holds, owns, Bool.and_assoc, Bool.and_comm, Bool.and_left_comm]

end Scope

namespace AggregateShape

/-- The same aggregate of all events of a table. -/
def overall (shape : AggregateShape) : Inquiry AggregateRows := do
  let q : Query :=
    { grouping := shape.grouping, measures := shape.measures, orderBy := shape.orderBy,
      limit := shape.limit }
  Inquiry.ofExcept shape.checkOrder
  let rows ← Inquiry.query q
  Inquiry.ofExcept (collectRows q rows)

/-- With these filters the aggregate comes to what it would on the events that satisfy `p`. -/
def Selects (shape : AggregateShape) (scope : Scope) (t : EventTable) (ws : List WrittenFilter)
    (p : StoredEvent → Bool) : Prop :=
  ((aggregate scope { shape with filters := ws.map WrittenFilter.filter }).run Store.table t).outcome =
    (shape.overall.run Store.table (t.only p)).outcome

variable {shape : AggregateShape} {scope : Scope} {start finish : Instant} {ws : List WrittenFilter}
  {cs : List Clause}

theorem outcome_total (t : EventTable) :
    ((overall { measures := [.totalEvents] }).run Store.table t).outcome =
      .finished (.ok [(.null, ⟨.null, [("total_events", .int t.rows.length)]⟩)]) := by
  let q : Query := { measures := [.totalEvents] }
  have hrun : q.run t = .ok [[("total_events", .number (.int t.rows.length))]] := by
    change Except.ok (q.answer [[]] t) = _
    rw [Query.answer, Query.selected_all]
    rfl
  change ((Inquiry.ask q fun rows => Inquiry.ofExcept (collectRows q rows)).run Store.table t).outcome = _
  rw [Inquiry.run, Store.table_ok hrun]
  rfl

theorem Selects.total {t : EventTable} {p : StoredEvent → Bool}
    (h : Selects { measures := [.totalEvents] } scope t ws p) :
    ((aggregate scope { measures := [.totalEvents], filters := ws.map WrittenFilter.filter }).run
      Store.table t).outcome =
        .finished (.ok [(.null, ⟨.null, [("total_events", .int (t.rows.filter p).length)]⟩)]) :=
  h.trans (outcome_total (t.only p))

theorem outcome_aggregate {c : Clause}
    (hwindow : scope.window.resolve? scope.now = some (start, finish))
    (hjoined : Filter.joined? (shape.query scope.site start finish scope.predicate).filters = some c)
    (t : EventTable) :
    ((aggregate scope shape).run Store.table t).outcome =
      (shape.overall.run Store.table (t.only c.holds)).outcome := by
  have hresolved : resolved scope = .ok (start, finish) := by
    rw [resolved, hwindow]
  rw [aggregate, overall, hresolved]
  cases shape.checkOrder with
  | error e => rfl
  | ok _ => exact Inquiry.outcome_query (Query.run_only hjoined t) _

theorem joined?_query (h : shape.filters.mapM Filter.meaning = some cs) :
    Filter.joined? (shape.query scope.site start finish scope.predicate).filters =
      some (scope.clause start finish cs) := by
  have hmeanings : ([Filter.site scope.site, Filter.window start finish] ++ shape.filters ++
      [Filter.predicate scope.predicate]).mapM Filter.meaning =
        some ([.test (.siteIs scope.site), .test (.inWindow start finish)] ++ cs ++
          [.test (.selected scope.predicate)]) := by
    rw [List.mapM_append, List.mapM_append, h]
    rfl
  rw [Filter.joined?]
  change (List.mapM _ ([Filter.site scope.site, Filter.window start finish] ++ shape.filters ++
      [Filter.predicate scope.predicate]) >>= _) = _
  rw [hmeanings, List.append_assoc, List.cons_append, List.cons_append, List.nil_append, Scope.clause,
    ← Clause.foldl_followedBy (by simp)]
  simp [Clause.test, Clause.followedBy]

theorem joined?_written (h : List.Forall₂ WrittenFilter.Reads ws cs) :
    Filter.joined? ({ shape with filters := ws.map WrittenFilter.filter }.query scope.site start
      finish scope.predicate).filters = some (scope.clause start finish cs) :=
  joined?_query (WrittenFilter.mapM_meaning h)

theorem selects_clause (hwindow : scope.window.resolve? scope.now = some (start, finish))
    (h : List.Forall₂ WrittenFilter.Reads ws cs) (t : EventTable) :
    shape.Selects scope t ws (scope.clause start finish cs).holds :=
  outcome_aggregate hwindow (joined?_written h) t

theorem selects_narrowed (hwindow : scope.window.resolve? scope.now = some (start, finish))
    (h : List.Forall₂ WrittenFilter.Reads ws cs) (hsingle : ∀ c ∈ cs, c.length = 1) (t : EventTable) :
    shape.Selects scope t ws fun e => scope.owns start finish e && cs.all fun c => c.holds e := by
  have hholds := funext (scope.holds_clause start finish hsingle)
  rw [← hholds]
  exact selects_clause hwindow h t

/-- The filters of an aggregate are read as one text between its scope and its predicate. They narrow
the scope where none of them has an OR outside brackets, and so they do in brackets. -/
theorem selects_as_joined (hwindow : scope.window.resolve? scope.now = some (start, finish))
    (h : List.Forall₂ WrittenFilter.Reads ws cs) (t : EventTable) :
    (ws ≠ [] → (WrittenFilter.joined ws).Reads (cs.foldl Clause.followedBy [[]])) ∧
      shape.Selects scope t ws (scope.clause start finish cs).holds ∧
      ((aggregate scope { measures := [.totalEvents], filters := ws.map WrittenFilter.filter }).run
        Store.table t).outcome = .finished (.ok [(.null, ⟨.null, [("total_events",
          .int (t.rows.filter (scope.clause start finish cs).holds).length)]⟩)]) ∧
      ((∀ c ∈ cs, c.length = 1) → shape.Selects scope t ws fun e =>
        scope.owns start finish e && cs.all fun c => c.holds e) ∧
      shape.Selects scope t (ws.map WrittenFilter.bracketed) fun e =>
        scope.owns start finish e && cs.all fun c => c.holds e := by
  refine ⟨fun hne => ?_, selects_clause hwindow h t, (selects_clause hwindow h t).total,
    fun hsingle => selects_narrowed hwindow h hsingle t, ?_⟩
  · cases h with
    | nil => exact absurd rfl hne
    | cons hw hws =>
      rw [List.foldl_cons, Clause.test_nil_followedBy hw.ne_nil]
      exact WrittenFilter.joined_reads hw hws
  · have hbracketed : List.Forall₂ WrittenFilter.Reads (ws.map WrittenFilter.bracketed)
        (cs.map Clause.inBrackets) := by
      rw [List.forall₂_map_left_iff, List.forall₂_map_right_iff]
      exact h.imp fun _ _ hw => hw.bracketed
    have hall (e : StoredEvent) : (cs.map Clause.inBrackets).all (fun c => c.holds e) =
        cs.all fun c => c.holds e := by
      simp [List.all_map, Function.comp_def, Clause.holds_inBrackets]
    simp only [← hall]
    exact selects_narrowed hwindow hbracketed (by simp [Clause.inBrackets, Clause.test]) t

section ViewOrClick

def momentAt (site : String) : Scope where
  site := site
  window := ⟨some default, some default, 1, by decide, by simp⟩
  now := default

def clickAt (site : String) : StoredEvent where
  id := "e"
  site := site
  session := "v"
  type := "click"
  timestamp := default
  pagePath := none
  referrer := none
  userAgent := none
  userLanguage := none
  deviceType := none
  viewportWidth := none
  scrollDepth := none
  loadTime := none
  isDeadClick := none
  experimentIds := []
  variantIds := []
  data := .null

def viewOrClick : WrittenFilter := ⟨"event_type = ? OR event_type = ?", [.text "view", .text "click"]⟩

def viewOrClickClause : Clause :=
  [[.compare .type .eq (.text "view")], [.compare .type .eq (.text "click")]]

theorem viewOrClick_reads : viewOrClick.Reads viewOrClickClause := by
  have htokens : Written.tokens viewOrClick.text = [.word "event_type", .symbol "=", .symbol "?",
      .word "OR", .word "event_type", .symbol "=", .symbol "?"] := by decide +kernel
  have htest (type : String) : Written.compare? "event_type" "=" (.text type) =
      some (.compare .type .eq (.text type)) := rfl
  have hclick : Written.readTest? 1 ⟨[.word "event_type", .symbol "=", .symbol "?"],
      [.text "click"]⟩ = some (.compare .type .eq (.text "click"), ⟨[], []⟩) :=
    Written.readTest?_iff.mpr (.compare (htest "click"))
  have hlast := Written.readClause?_iff.mpr (.last hclick (by simp [Written.Ends]))
  rw [WrittenFilter.Reads, Written.clause?_eq_some, htokens]
  have hview : Written.readTest? 2 ⟨[.word "event_type", .symbol "=", .symbol "?", .word "OR",
      .word "event_type", .symbol "=", .symbol "?"], viewOrClick.params⟩ =
        some (.compare .type .eq (.text "view"), ⟨[.word "OR", .word "event_type", .symbol "=",
          .symbol "?"], [.text "click"]⟩) :=
    Written.readTest?_iff.mpr (.compare (htest "view"))
  have hwhole := Written.readClause?_iff.mpr
    (.or hview (by decide +kernel) (by decide +kernel) hlast)
  exact Written.readClause?_mono hwhole (by simp)

/-- A click at one site is counted as an event of another: after OR the scope no longer holds. -/
theorem counts_click_elsewhere :
    (∀ e ∈ [clickAt "b"], (momentAt "a").owns default default e = false) ∧
      ((aggregate (momentAt "a") { measures := [.totalEvents], filters := [viewOrClick.filter] }).run
        Store.table ⟨[clickAt "b"]⟩).outcome =
          .finished (.ok [(.null, ⟨.null, [("total_events", .int 1)]⟩)]) := by
  have hwindow : (momentAt "a").window.resolve? (momentAt "a").now = some (default, default) := rfl
  have hselects := @selects_clause { measures := [.totalEvents] } _ _ _ _ _ hwindow
    (.cons viewOrClick_reads .nil) ⟨[clickAt "b"]⟩
  refine ⟨by decide +kernel, hselects.total.trans ?_⟩
  rw [List.filter_cons_of_pos (by decide +kernel)]
  rfl

/-- In brackets the same filter counts the click at the site and no other. -/
theorem selects_click_in_brackets :
    let p e := (momentAt "a").owns default default e &&
      [viewOrClickClause.inBrackets].all fun c => c.holds e
    (WrittenFilter.joined [viewOrClick.bracketed]).Reads viewOrClickClause.inBrackets ∧
      ({ measures := [.totalEvents] } : AggregateShape).Selects (momentAt "a")
        ⟨[clickAt "a", clickAt "b"]⟩ [viewOrClick.bracketed] p ∧
      EventTable.only p ⟨[clickAt "a", clickAt "b"]⟩ = ⟨[clickAt "a"]⟩ := by
  intro p
  have hwindow : (momentAt "a").window.resolve? (momentAt "a").now = some (default, default) := rfl
  obtain ⟨hreads, -, -, hselects, -⟩ := @selects_as_joined { measures := [.totalEvents] } _ _ _ _ _ hwindow
    (.cons viewOrClick_reads.bracketed .nil) ⟨[clickAt "a", clickAt "b"]⟩
  refine ⟨hreads (by simp), hselects (by simp [Clause.inBrackets, Clause.test]), ?_⟩
  rw [EventTable.only, List.filter_cons_of_pos (by decide +kernel),
    List.filter_cons_of_neg (by decide +kernel), List.filter_nil]

end ViewOrClick

end AggregateShape

end CohortAnalytics
