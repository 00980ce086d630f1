import CohortAnalytics.Proofs.Query.Narrowing
import CohortAnalytics.Proofs.Time.Conversion
import CohortAnalytics.Proofs.Warehouse.Loading

/-!
Events by their rage clicks. The rules for the two truth values share out the events that have one of
them; an event that was loaded without is selected by neither.
-/

namespace CohortAnalytics

open Inquiry

namespace Rule

variable {r : Rule} {b : Bool}

/-- The rule asks for events whose rage clicks have this truth value. -/
structure AsksRageClicks (r : Rule) (b : Bool) : Prop where
  field : r.field = "has_rage_clicks"
  operator : ∃ op, RuleOperator.ofName? r.operator = some op
  value : ∃ v, RuleValue.ofScalar? r.value = some v ∧ flagOf v = b

theorem AsksRageClicks.compile (h : r.AsksRageClicks b) : r.compile = .ok (.deadClickIs b) := by
  obtain ⟨op, hop⟩ := h.operator
  obtain ⟨v, hv, hflag⟩ := h.value
  have hlookup : CohortField.lookup? r.field = some ⟨"has_rage_clicks", .deadClick⟩ := by
    rw [h.field]
    rfl
  rw [Rule.compile, hlookup]
  dsimp only
  rw [hop]
  dsimp only
  rw [valueOf, hv, ← hflag]
  rfl

theorem AsksRageClicks.ofRules? (h : r.AsksRageClicks b) :
    Compiled.ofRules? [.checked r] = some { predicate := [.deadClickIs b] } := by
  change Compiled.prependTo {} 0 (.checked r) = _
  rw [Compiled.prependTo, RawRule.compile, h.compile]

end Rule

theorem Scope.events_deadClickIs (site : String) (window : Window) (now : Instant) (b : Bool)
    (start finish : Instant) (t : EventTable) :
    Scope.events { site, window, now, predicate := [.deadClickIs b] } start finish t =
      (Scope.events { site, window, now } start finish t).filter
        fun e => e.isDeadClick == some b := by
  rw [events, events, List.filter_filter]
  apply List.filter_congr
  intro e _
  cases hvalue : e.isDeadClick <;>
    simp [owns, Predicate.holds, Condition.holds, hvalue, Bool.and_comm]

namespace Measure

/-- The measures that count events. -/
def eventCounts : List Measure := [.totalEvents, .totalClicks, .totalScrolls]

theorem value_eventCounts {m : Measure} (hm : m ∈ eventCounts) :
    ∃ p : StoredEvent → Bool, ∀ rows, m.value rows = .int (rows.filter p).length := by
  simp only [eventCounts, List.mem_cons, List.not_mem_nil, or_false] at hm
  rcases hm with rfl | rfl | rfl
  · exact ⟨fun _ => true, fun rows => by rw [List.filter_true]; rfl⟩
  · exact ⟨isType clickType, fun _ => rfl⟩
  · exact ⟨isType scrollType, fun _ => rfl⟩

theorem value_nil {m : Measure} (hm : m ∈ eventCounts) : m.value [] = .int 0 := by
  obtain ⟨p, hp⟩ := value_eventCounts hm
  exact hp []

/-- Events shared out by their rage clicks: true, false or without a value. -/
theorem value_eq_by_rageClicks {m : Measure} (hm : m ∈ eventCounts) (rows : List StoredEvent) :
    ∃ n a b u : ℕ, m.value rows = .int n ∧
      m.value (rows.filter fun e => e.isDeadClick == some true) = .int a ∧
      m.value (rows.filter fun e => e.isDeadClick == some false) = .int b ∧
      m.value (rows.filter fun e => e.isDeadClick == none) = .int u ∧ n = a + b + u := by
  obtain ⟨p, hp⟩ := value_eventCounts hm
  refine ⟨_, _, _, _, hp _, hp _, hp _, hp _, ?_⟩
  have hshared := @Query.sum_length_filter _ _ _ [some true, some false, none] (by decide)
    StoredEvent.isDeadClick (rows.filter p) fun e _ => by
      rcases e.isDeadClick with _ | _ | _ <;> simp
  rw [← hshared]
  simp only [List.map_cons, List.map_nil, List.sum_cons, List.sum_nil, List.filter_filter,
    Bool.and_comm, Nat.add_zero, Nat.add_assoc]

end Measure

theorem LooseEvent.Becomes.rageClicks_iff {e : LooseEvent} {row : StoredEvent} (h : e.Becomes row)
    (b : Bool) : row.isDeadClick = some b ↔ e.find? deadClickColumn = some (.bool b) := by
  have hvalue := h.truth
  change e.Holds IsTruth deadClickColumn row.isDeadClick at hvalue
  cases hrow : row.isDeadClick with
  | none =>
    rw [hrow] at hvalue
    exact ⟨fun hb => (by cases hb), fun hb => (by cases hvalue _ hb)⟩
  | some c =>
    rw [hrow] at hvalue
    obtain ⟨v, hfound, rfl⟩ := hvalue
    rw [hfound, Option.some.injEq, Option.some.injEq, Json.bool.injEq]

/-- Events that were all loaded with a truth value are rows with one. -/
theorem EventTable.marked_of_loaded {loads : List (List LooseEvent)}
    (h : ∀ batch ∈ loads, ∀ e ∈ batch, ∃ b, e.find? deadClickColumn = some (.bool b))
    {row : StoredEvent} (hrow : row ∈ (loaded loads).rows) : row.isDeadClick ≠ none := by
  obtain ⟨batch, hbatch, e, he, hstored⟩ := source_of_loaded hrow
  obtain ⟨b, hb⟩ := h batch hbatch e he
  rw [← (LooseEvent.becomes_of_stored hstored).rageClicks_iff] at hb
  simp [hb]

/-- Rules for rage clicks split the events that were loaded with a truth value: an event without one
is in neither half, and the counts of the halves fall short by such events. -/
theorem rageClicks_split (loads : List (List LooseEvent)) (site : String) {window : Window}
    {now start finish : Instant} (hwindow : window.resolve? now = some (start, finish))
    {yes no : Rule} (hyes : yes.AsksRageClicks true) (hno : no.AsksRageClicks false) :
    ∃ withThem without,
      Compiled.ofRules? [.checked yes] = some withThem ∧
      Compiled.ofRules? [.checked no] = some without ∧
      let t := EventTable.loaded loads
      let scope (p : Predicate) : Scope := { site, window, now, predicate := p }
      let events (p : Predicate) := (scope p).events start finish t
      (∀ row ∈ events [], ∃ batch ∈ loads, ∃ e ∈ batch, e.stored = .ok row ∧
        (row ∈ events withThem.predicate ↔ e.find? deadClickColumn = some (.bool true)) ∧
        (row ∈ events without.predicate ↔ e.find? deadClickColumn = some (.bool false))) ∧
      ∃ whole half other, (cohortSummary (scope [])).Gives t whole ∧
        (cohortSummary (scope withThem.predicate)).Gives t half ∧
        (cohortSummary (scope without.predicate)).Gives t other ∧
        ∀ m ∈ Measure.eventCounts, ∃ n a b u : ℕ, whole.get m.name = .int n ∧
          half.get m.name = .int a ∧ other.get m.name = .int b ∧ n = a + b + u ∧
          m.value ((events []).filter fun row => row.isDeadClick == none) = .int u ∧
          ((∀ batch ∈ loads, ∀ e ∈ batch, ∃ b, e.find? deadClickColumn = some (.bool b)) →
            u = 0) := by
  have hnames := Measure.nodup_cohortSummary
  refine ⟨_, _, hyes.ofRules?, hno.ofRules?, ?_⟩
  intro t scope events
  -- Each half is a filter of the same events, and what neither filter takes is the rest.
  have hhalf (b : Bool) :
      events [.deadClickIs b] = (events []).filter fun row => row.isDeadClick == some b :=
    Scope.events_deadClickIs site window now b start finish t
  constructor
  · intro row hrow
    obtain ⟨batch, hbatch, e, he, hstored⟩ :=
      EventTable.source_of_loaded (Scope.mem_events.mp hrow).1
    have hparts := LooseEvent.becomes_of_stored hstored
    have hiff (b : Bool) :
        row ∈ events [.deadClickIs b] ↔ e.find? deadClickColumn = some (.bool b) := by
      rw [hhalf, List.mem_filter, beq_iff_eq, hparts.rageClicks_iff]
      exact and_iff_right hrow
    exact ⟨batch, hbatch, e, he, hstored, hiff true, hiff false⟩
  · refine ⟨_, _, _, summary_gives _ hnames hwindow _, summary_gives _ hnames hwindow _,
      summary_gives _ hnames hwindow _, fun m hm => ?_⟩
    have hsummary : m ∈ Measure.cohortSummary := by
      revert m
      decide
    obtain ⟨n, a, b, u, hn, ha, hb, hu, hsum⟩ := Measure.value_eq_by_rageClicks hm (events [])
    rw [← hhalf] at ha hb
    refine ⟨n, a, b, u, (AggregateRow.get_counting hnames hsummary).trans hn,
      (AggregateRow.get_counting hnames hsummary).trans ha,
      (AggregateRow.get_counting hnames hsummary).trans hb, hsum, hu, fun hall => ?_⟩
    have hnone : (events []).filter (fun row => row.isDeadClick == none) = [] := by
      rw [List.filter_eq_nil_iff]
      intro row hrow hmissing
      exact EventTable.marked_of_loaded hall (Scope.mem_events.mp hrow).1 (beq_iff_eq.mp hmissing)
    rw [hnone, Measure.value_nil hm] at hu
    exact (Int.ofNat.inj (Number.int.inj hu)).symm

section Viewed

open LooseEvent EventTable

def asksRageClicks (value : String) : Rule := ⟨"has_rage_clicks", "equals", .text value, none⟩

theorem asksRageClicks_spec (value : String) :
    (asksRageClicks value).AsksRageClicks (Rule.flagOf (.text value)) :=
  ⟨rfl, ⟨.equals, rfl⟩, _, rfl, rfl⟩

/-- A page view with a truth value is counted in one of the halves. -/
theorem rageClicks_split_marked :
    let t := loaded [[(viewed "a" "/").put deadClickColumn (.bool true)]]
    ∃ withThem without whole half other,
      Compiled.ofRules? [.checked (asksRageClicks " True")] = some withThem ∧
      Compiled.ofRules? [.checked (asksRageClicks "no")] = some without ∧
      (cohortSummary ⟨"shop", ever, dawn, []⟩).Gives t whole ∧
      (cohortSummary ⟨"shop", ever, dawn, withThem.predicate⟩).Gives t half ∧
      (cohortSummary ⟨"shop", ever, dawn, without.predicate⟩).Gives t other ∧
      ∃ a b : ℕ, whole.get "total_events" = .int (a + b : ℕ) ∧ half.get "total_events" = .int a ∧
        other.get "total_events" = .int b := by
  intro t
  obtain ⟨withThem, without, hwith, hwithout, -, whole, half, other, hwhole, hhalf, hother,
    hcounts⟩ := rageClicks_split [[(viewed "a" "/").put deadClickColumn (.bool true)]] "shop"
      (show ever.resolve? dawn = some (dawn, dusk) from rfl) (asksRageClicks_spec " True")
      (asksRageClicks_spec "no")
  obtain ⟨n, a, b, u, hn, ha, hb, hsum, -, hu⟩ := hcounts .totalEvents (by decide)
  obtain rfl := hu (by simp [Entries.find?_put_self])
  exact ⟨withThem, without, whole, half, other, hwith, hwithout, hwhole, hhalf, hother, a, b,
    by rw [hsum] at hn; exact hn, ha, hb⟩

theorem loaded_viewed : ∃ row, loaded [[viewed "a" "/"]] = ⟨[row]⟩ ∧ row.site = "shop" ∧
    row.isDeadClick = none := by
  obtain ⟨rows, _, hrows, -, hinsert⟩ := insert_of_stored {}
    (show ∀ e ∈ [viewed "a" "/"], ∃ row, stored e = .ok row by
      simpa using (viewed_isWellFormed _ _).stored)
  obtain ⟨row, hrow, rfl⟩ : ∃ row, stored (viewed "a" "/") = .ok row ∧ rows = [row] := by
    cases hrows with
    | cons hrow hrest =>
      cases hrest
      exact ⟨_, hrow, rfl⟩
  have hparts := becomes_of_stored hrow
  refine ⟨row, ?_, Json.text.inj (Option.some.inj hparts.site.symm), ?_⟩
  · change (insert {} [viewed "a" "/"]).1 = _
    rw [hinsert]
    rfl
  · rw [Option.eq_none_iff_forall_ne_some]
    intro b hb
    cases (hparts.rageClicks_iff b).mp hb

/-- A page view that is loaded without a truth value is in neither half. -/
theorem rageClicks_missing :
    let t := loaded [[viewed "a" "/"]]
    let events (p : Predicate) := Scope.events ⟨"shop", ever, dawn, p⟩ dawn dusk t
    ∃ withThem without whole half other,
      Compiled.ofRules? [.checked (asksRageClicks "true")] = some withThem ∧
      Compiled.ofRules? [.checked (asksRageClicks "false")] = some without ∧
      (∃ row ∈ events [], row ∉ events withThem.predicate ∧ row ∉ events without.predicate) ∧
      (cohortSummary ⟨"shop", ever, dawn, []⟩).Gives t whole ∧
      (cohortSummary ⟨"shop", ever, dawn, withThem.predicate⟩).Gives t half ∧
      (cohortSummary ⟨"shop", ever, dawn, without.predicate⟩).Gives t other ∧
      whole.get "total_events" = .int 1 ∧ half.get "total_events" = .int 0 ∧
        other.get "total_events" = .int 0 := by
  intro t events
  obtain ⟨row, hloaded, hsite, hmissing⟩ := loaded_viewed
  have hall : events [] = [row] := by
    have hlast := row.timestamp.inRange
    change List.filter (Scope.owns ⟨"shop", ever, dawn, []⟩ dawn dusk) t.rows = _
    rw [show t = ⟨[row]⟩ from hloaded, List.filter_eq_self]
    have hinside : row.timestamp.micros ≤ 3652059 * microsPerDay - 1 := Nat.le_pred_of_lt hlast
    simp only [List.mem_singleton, forall_eq, Scope.owns, hsite, Instant.le, dawn, dusk,
      Predicate.holds, List.all_nil, beq_self_eq_true, Bool.and_true, Bool.and_eq_true]
    exact ⟨trivial, decide_eq_true (Nat.zero_le _), decide_eq_true hinside⟩
  have hnone (b : Bool) : events [.deadClickIs b] = [] := by
    have hhalf : events [.deadClickIs b] = (events []).filter fun row => row.isDeadClick == some b :=
      Scope.events_deadClickIs _ _ _ _ _ _ _
    simp [hhalf, hall, hmissing]
  have hcount {p : Predicate} {n : ℕ} (h : (events p).length = n) :
      (AggregateRow.counting .null Measure.cohortSummary (events p)).get "total_events" = .int n :=
    (AggregateRow.get_counting (m := .totalEvents) Measure.nodup_cohortSummary (by decide)).trans
      (by rw [← h]; rfl)
  have hgives (p : Predicate) : (cohortSummary ⟨"shop", ever, dawn, p⟩).Gives t
      (.counting .null Measure.cohortSummary (events p)) :=
    summary_gives _ Measure.nodup_cohortSummary rfl t
  exact ⟨_, _, _, _, _, (asksRageClicks_spec "true").ofRules?,
    (asksRageClicks_spec "false").ofRules?,
    ⟨row, by simp [hall], by simp [hnone], by simp [hnone]⟩, hgives _, hgives _, hgives _,
    hcount (by rw [hall]; rfl), hcount (by rw [hnone]; rfl), hcount (by rw [hnone]; rfl)⟩

end Viewed

end CohortAnalytics
