import CohortAnalytics.Proofs.Entries
import CohortAnalytics.Proofs.Query.Collected
import CohortAnalytics.Proofs.Service.CohortAnswers
import CohortAnalytics.Service.ExperimentNumbers

/-!
The counts of variants and goals. On any answer of the store each is read off one row, with its
conversions cut down to its users; on a table a variant is counted as soon as one event pairs it with
the experiment, and its conversions are never above its users.
-/

namespace CohortAnalytics

/-- The value that a row of one grouping column belongs to. -/
def groupCell (row : StoreRow) : Json := (Entries.find? (Statement.groupName 0) row).getD .null

def columnNumber (name : String) (row : StoreRow) : Except Failure Number :=
  ((Entries.find? name row).getD .null).toNumber

section Counts

variable {rows : AggregateRows} {id : String} {row : AggregateRow}

theorem mem_names_counts : id ∈ (countsByVariant rows).names ↔
    ∃ key ∈ rows.map Prod.fst, key.isNull = false ∧ key.display = id := by
  rw [countsByVariant, Entries.mem_names_ofList, List.map_map]
  simp only [List.mem_map, List.mem_filter, Bool.not_eq_true', Function.comp_apply]
  constructor
  · rintro ⟨entry, ⟨hmem, hsome⟩, hid⟩
    exact ⟨entry.1, ⟨entry, hmem, rfl⟩, hsome, hid⟩
  · rintro ⟨key, ⟨entry, hmem, rfl⟩, hsome, hid⟩
    exact ⟨entry, ⟨hmem, hsome⟩, hid⟩

theorem source_of_mem_counts (h : (id, row) ∈ countsByVariant rows) :
    ∃ key r, (key, r) ∈ rows ∧ key.isNull = false ∧ key.display = id ∧ clampConversions r = row := by
  obtain ⟨⟨key, r⟩, hmem, heq⟩ := List.mem_map.mp (Entries.mem_of_mem_ofList h)
  obtain ⟨hrows, hsome⟩ := List.mem_filter.mp hmem
  obtain ⟨hid, hrow⟩ := Prod.mk.inj heq
  exact ⟨key, r, hrows, by simpa using hsome, hid, hrow⟩

end Counts

theorem rowNumbers_variant {experiment goalEvent : String} {row : StoreRow} {values : Entries Number}
    (h : rowNumbers [.users, .conversions experiment goalEvent] row = .ok values) :
    ∃ users conversions, columnNumber "users" row = .ok users ∧
      columnNumber "conversions" row = .ok conversions ∧
      values = [("users", users), ("conversions", conversions)] := by
  obtain ⟨numbers, hnumbers, h⟩ := bind_ok h
  rw [List.mapM_cons, List.mapM_cons, List.mapM_nil] at hnumbers
  obtain ⟨first, hfirst, hnumbers⟩ := bind_ok hnumbers
  obtain ⟨users, husers, hfirst⟩ := bind_ok hfirst
  obtain ⟨others, hothers, hnumbers⟩ := bind_ok hnumbers
  obtain ⟨second, hsecond, hothers⟩ := bind_ok hothers
  obtain ⟨conversions, hconversions, hsecond⟩ := bind_ok hsecond
  obtain rfl := Except.ok.inj hfirst
  obtain rfl := Except.ok.inj hsecond
  obtain ⟨rest, hrest, hothers⟩ := bind_ok hothers
  obtain rfl := Except.ok.inj hrest
  obtain rfl := Except.ok.inj hothers
  obtain rfl := Except.ok.inj hnumbers
  obtain rfl := Except.ok.inj h
  exact ⟨users, conversions, husers, hconversions, rfl⟩

theorem whole_clampConversions (key : Json) (users conversions : Number) :
    (clampConversions ⟨key, [("users", users), ("conversions", conversions)]⟩).whole "users" =
        users.toWhole ∧
      (clampConversions ⟨key, [("users", users), ("conversions", conversions)]⟩).whole
        "conversions" = (if users.lt conversions then users else conversions).toWhole := by
  -- Cut down, the conversions take the users' number as it is, before either is made whole.
  have husers : (AggregateRow.mk key [("users", users), ("conversions", conversions)]).get "users" =
      users := rfl
  have hconversions :
      (AggregateRow.mk key [("users", users), ("conversions", conversions)]).get "conversions" =
        conversions := rfl
  rw [clampConversions, husers, hconversions]
  by_cases hmore : users.lt conversions
  · rw [if_pos hmore, if_pos hmore]
    exact ⟨rfl, rfl⟩
  · rw [if_neg hmore, if_neg hmore]
    exact ⟨rfl, rfl⟩

/-- A variant's counts are those of the row: whole users, and conversions cut down to the users. -/
def VariantStats.IsCountOf (v : VariantStats) (row : StoreRow) : Prop :=
  ∃ users conversions, columnNumber "users" row = .ok users ∧
    columnNumber "conversions" row = .ok conversions ∧ users.toWhole = .ok (v.users : ℤ) ∧
    (if users.lt conversions then users else conversions).toWhole = .ok (v.conversions : ℤ)

theorem VariantStats.make_inv {id : String} {users conversions : ℤ} {name : String}
    {goals : List GoalStats} {v : VariantStats} (h : make id users conversions name goals = .ok v) :
    v.id = id ∧ (v.users : ℤ) = users ∧ (v.conversions : ℤ) = conversions ∧ v.goals = goals := by
  rw [make] at h
  split_ifs at h with hnegative hle
  obtain rfl := Except.ok.inj h
  exact ⟨rfl, Int.toNat_of_nonneg (by omega), Int.toNat_of_nonneg (by omega), rfl⟩

namespace ExperimentReport

variable {e : Experiment} {counts : Entries AggregateRow} {goals : List GoalRow} {id : String}
  {v : VariantStats}

/-- The statistics of a goal are of the goal that the row names, and never of more than the users. -/
theorem goalStats_inv {users : ℤ} {g : GoalRow} {s : GoalStats} (h : goalStats e users g = .ok s) :
    textOf g.goal = .ok s.goalId ∧ goalTypeOf (e.goal? s.goalId) g.type = .ok s.goalType ∧
      s.conversions ≤ users := by
  obtain ⟨id, hid, h⟩ := bind_ok h
  obtain ⟨counted, -, h⟩ := bind_ok h
  obtain ⟨revenue, -, h⟩ := bind_ok h
  obtain ⟨type, htype, h⟩ := bind_ok h
  dsimp only at h
  split_ifs at h
  all_goals
    obtain ⟨rate, -, h⟩ := bind_ok h
    obtain ⟨average, -, h⟩ := bind_ok h
    obtain ⟨visitor, -, h⟩ := bind_ok h
    obtain rfl := Except.ok.inj h
    exact ⟨hid, htype, min_le_right counted users⟩

theorem variantStats_inv (h : variantStats e counts goals id = .ok v) :
    v.id = id ∧
      ((counts.find? id).getD (AggregateRow.zero [])).whole "users" = .ok (v.users : ℤ) ∧
      ((counts.find? id).getD (AggregateRow.zero [])).whole "conversions" =
        .ok (v.conversions : ℤ) ∧
      (goals.filter (isOfVariant id)).mapM (goalStats e v.users) = .ok v.goals := by
  obtain ⟨users, husers, h⟩ := bind_ok h
  obtain ⟨conversions, hconversions, h⟩ := bind_ok h
  obtain ⟨stats, hstats, h⟩ := bind_ok h
  cases hmade : VariantStats.make id users conversions (e.variantName id) stats with
  | error err =>
    rw [hmade] at h
    cases h
  | ok made =>
    rw [hmade] at h
    obtain rfl := Except.ok.inj h
    obtain ⟨hid, heqUsers, heqConversions, rfl⟩ := VariantStats.make_inv hmade
    rw [heqUsers, heqConversions]
    exact ⟨hid, husers, hconversions, hstats⟩

theorem conversions_of_variantStats (h : variantStats e counts goals id = .ok v) :
    ∀ g ∈ v.goals, g.conversions ≤ v.users := by
  intro g hg
  obtain ⟨row, -, hrow⟩ := mapM_ok_mem (variantStats_inv h).2.2.2 hg
  exact (goalStats_inv hrow).2.2

end ExperimentReport

open Inquiry

/-- An event of the experiment's site in the window pairs the experiment with the variant. -/
def EventTable.Pairs (t : EventTable) (e : Experiment) (start finish : Instant) (variant : String) :
    Prop :=
  ∃ event ∈ t.rows, event.site = e.site ∧ start.micros ≤ event.timestamp.micros ∧
    event.timestamp.micros ≤ finish.micros ∧ event.variantIn? e.id = some variant

/-- What the rows of variants hold: a variant with at least one user and no more conversions. -/
structure AggregateRow.IsVariantCount (r : AggregateRow) (users conversions : ℕ) : Prop where
  users_eq : r.whole "users" = .ok (users : ℤ)
  conversions_eq : r.whole "conversions" = .ok (conversions : ℤ)
  users_pos : 0 < users
  users_lt : users < 2 ^ 63
  conversions_le : conversions ≤ users

namespace StoredEvent

theorem takesPartIn_of_variantIn? {e : StoredEvent} {experiment variant : String}
    (h : e.variantIn? experiment = some variant) : e.takesPartIn experiment = true := by
  rw [variantIn?, Option.bind_eq_some_iff] at h
  obtain ⟨i, hi, -⟩ := h
  obtain ⟨hlt, heq, -⟩ := List.findIdx?_eq_some_iff_getElem.mp hi
  rw [takesPartIn, List.contains_iff_mem, ← beq_iff_eq.mp heq]
  exact List.getElem_mem hlt

end StoredEvent

section Enrolled

variable {scope : Scope} {start finish : Instant} {experiment variant : String} {t : EventTable}
  {event : StoredEvent}

/-- The events of a site in a window that pair an experiment with a variant. -/
def EventTable.enrolled (t : EventTable) (scope : Scope) (start finish : Instant)
    (experiment variant : String) : List StoredEvent :=
  ({ scope with predicate := [] }.events start finish t).filter fun e =>
    e.variantIn? experiment == some variant

theorem EventTable.mem_enrolled : event ∈ t.enrolled scope start finish experiment variant ↔
    event ∈ t.rows ∧ event.site = scope.site ∧ start.micros ≤ event.timestamp.micros ∧
      event.timestamp.micros ≤ finish.micros ∧ event.variantIn? experiment = some variant := by
  simp [enrolled, Scope.mem_events, Predicate.holds, and_assoc]

theorem pairs_iff {e : Experiment} {w : Window} {now : Instant} :
    t.Pairs e start finish variant ↔
      ∃ event, event ∈ t.enrolled { site := e.site, window := w, now } start finish e.id variant := by
  simp only [EventTable.Pairs, EventTable.mem_enrolled]

theorem variantsShape_isSound (experiment goalEvent : String) :
    (variantsShape experiment goalEvent).IsSound :=
  ⟨by simp [variantsShape, Filter.takesPart, Filter.isTest_ofTest], rfl, rfl,
    show ["group_0", "users", "conversions"].Nodup by decide⟩

theorem mem_events_variantsShape {goalEvent : String} :
    event ∈ (variantsShape experiment goalEvent).events scope start finish t ↔
      event ∈ scope.events start finish t ∧ event.takesPartIn experiment = true := by
  simp [AggregateShape.events, variantsShape, Filter.lets, Filter.takesPart, Filter.ofTest,
    Clause.test, Clause.holds_single, allHold, EventTest.holds]

/-- The group of a variant has the events that pair the experiment with it. -/
theorem rows_of_key {goalEvent : String} {g : Query.Group}
    (h : g ∈ (variantsShape experiment goalEvent).answered { scope with predicate := [] } start
      finish t) (hkey : g.key = [some variant]) :
    g.rows = t.enrolled scope start finish experiment variant := by
  rw [(AggregateShape.isGroupOf_answered h).rows, hkey, AggregateShape.events, List.filter_filter,
    EventTable.enrolled]
  apply List.filter_congr
  intro e _
  -- The shape's filter adds nothing here, for an event of the variant takes part.
  have hkeys : (Grouping.key e (.byVariant experiment) == [some variant]) =
      (e.variantIn? experiment == some variant) := by
    simp [Grouping.key]
  rw [show (variantsShape experiment goalEvent).grouping = .byVariant experiment from rfl, hkeys]
  by_cases hpaired : e.variantIn? experiment = some variant
  · simp [hpaired, variantsShape, Filter.lets, Filter.takesPart, Filter.ofTest, Clause.test,
      Clause.holds_single, allHold, EventTest.holds, StoredEvent.takesPartIn_of_variantIn? hpaired]
  · simp [hpaired]

theorem mem_keys_answered {goalEvent : String} :
    [some variant] ∈ ((variantsShape experiment goalEvent).answered
      { scope with predicate := [] } start finish t).map Query.Group.key ↔
        ∃ event, event ∈ t.enrolled scope start finish experiment variant := by
  have hkeys := @Query.mem_keys_groups (.byVariant experiment)
    ((variantsShape experiment goalEvent).events { scope with predicate := [] } start finish t)
    (by simp) [some variant]
  refine hkeys.trans (exists_congr fun event => ?_)
  rw [mem_events_variantsShape, EventTable.enrolled, List.mem_filter, and_assoc]
  refine and_congr_right fun _ => ?_
  simp only [Grouping.key, List.cons.injEq, and_true, beq_iff_eq]
  exact ⟨And.right, fun h => ⟨StoredEvent.takesPartIn_of_variantIn? h, h⟩⟩

end Enrolled

theorem clampConversions_eq {r : AggregateRow} {users conversions : ℤ}
    (husers : r.get "users" = .int users) (hconversions : r.get "conversions" = .int conversions)
    (hle : conversions ≤ users) : clampConversions r = r := by
  rw [clampConversions, husers, hconversions, Number.lt_int, decide_eq_false hle.not_gt,
    if_neg Bool.false_ne_true]

namespace Query

variable {gs : List Group} {rowOf : Group → AggregateRow} {variant : String}

theorem variant_of_key {g : Group} (hg : g.key.length = 1) (hsome : (keyJson g.key).isNull = false) :
    ∃ variant, g.key = [some variant] ∧ (keyJson g.key).display = variant := by
  obtain ⟨value, hvalue⟩ := List.length_eq_one_iff.mp hg
  rw [hvalue] at hsome ⊢
  cases value with
  | none => cases hsome
  | some variant => exact ⟨variant, rfl, rfl⟩

theorem mem_names_variantCounts (hgs : ∀ g ∈ gs, g.key.length = 1) :
    variant ∈ (countsByVariant (gs.map fun g => (keyJson g.key, rowOf g))).names ↔
      [some variant] ∈ gs.map Group.key := by
  rw [mem_names_counts, List.map_map]
  constructor
  · rintro ⟨key, hkey, hsome, rfl⟩
    obtain ⟨g, hg, rfl⟩ := List.mem_map.mp hkey
    obtain ⟨v, hgroup, htext⟩ := variant_of_key (hgs g hg) hsome
    exact List.mem_map.mpr ⟨g, hg, by rw [hgroup, ← htext]; rfl⟩
  · intro hgroup
    obtain ⟨g, hg, hkey⟩ := List.mem_map.mp hgroup
    exact ⟨.text variant, List.mem_map.mpr ⟨g, hg, by simp [hkey, keyJson, cell]⟩, rfl, rfl⟩

theorem group_of_mem_counts (hgs : ∀ g ∈ gs, g.key.length = 1) {row : AggregateRow}
    (h : (variant, row) ∈ countsByVariant (gs.map fun g => (keyJson g.key, rowOf g))) :
    ∃ g ∈ gs, g.key = [some variant] ∧ row = clampConversions (rowOf g) := by
  obtain ⟨key, r, hmem, hsome, hdisplay, rfl⟩ := source_of_mem_counts h
  obtain ⟨g, hg, heq⟩ := List.mem_map.mp hmem
  obtain ⟨rfl, rfl⟩ := Prod.mk.inj heq
  obtain ⟨v, hkey, htext⟩ := variant_of_key (hgs g hg) hsome
  exact ⟨g, hg, by rw [hkey, ← htext, hdisplay], rfl⟩

end Query

/-- The row of a variant: its users, and those of them who converted. -/
def variantRow (experiment goalEvent variant : String) (events : List StoredEvent) : AggregateRow :=
  .counting (.text variant) [.users, .conversions experiment goalEvent] events

section VariantRow

variable {experiment goalEvent variant : String} {events : List StoredEvent}

theorem users_variantRow : (variantRow experiment goalEvent variant events).get "users" =
    .int (Measure.sessionCount events) :=
  AggregateRow.get_counting (m := .users) (show ["users", "conversions"].Nodup by decide) (by simp)

theorem conversions_variantRow :
    (variantRow experiment goalEvent variant events).get "conversions" =
      .int (Measure.sessionCount (events.filter (Measure.converts experiment goalEvent))) :=
  AggregateRow.get_counting (m := .conversions experiment goalEvent)
    (show ["users", "conversions"].Nodup by decide) (by simp)

theorem clampConversions_variantRow :
    clampConversions (variantRow experiment goalEvent variant events) =
      variantRow experiment goalEvent variant events :=
  clampConversions_eq users_variantRow conversions_variantRow
    (Int.ofNat_le.mpr (Measure.sessionCount_filter _ _))

theorem isVariantCount_variantRow (hsome : events ≠ []) (hfew : events.length < 2 ^ 63) :
    (variantRow experiment goalEvent variant events).IsVariantCount (Measure.sessionCount events)
      (Measure.sessionCount (events.filter (Measure.converts experiment goalEvent))) := by
  obtain ⟨event, hevent⟩ := List.exists_mem_of_ne_nil _ hsome
  refine ⟨?_, ?_, Measure.sessionCount_pos hevent,
    (Measure.sessionCount_le events).trans_lt hfew, Measure.sessionCount_filter _ _⟩
  · rw [AggregateRow.whole, users_variantRow]
    rfl
  · rw [AggregateRow.whole, conversions_variantRow]
    rfl

end VariantRow

/-- The counts of variants on a table: one for each variant that an event pairs with the
experiment, on the events that do. -/
theorem variantCounts_gives (experiment goalEvent : String) {scope : Scope} {start finish : Instant}
    (hwindow : scope.window.resolve? scope.now = some (start, finish)) (t : EventTable) :
    ∃ counts, (variantCounts experiment goalEvent scope).Gives t counts ∧ counts.names.Nodup ∧
      (∀ variant, variant ∈ counts.names ↔
        ∃ event, event ∈ t.enrolled scope start finish experiment variant) ∧
      ∀ variant row, (variant, row) ∈ counts → row = variantRow experiment goalEvent variant
        (t.enrolled scope start finish experiment variant) := by
  have hrows := AggregateShape.aggregate_gives_answered { scope with predicate := [] }
    (variantsShape_isSound experiment goalEvent) hwindow t
  have hwidth : ∀ g ∈ (variantsShape experiment goalEvent).answered { scope with predicate := [] }
      start finish t, g.key.length = 1 := fun g hg => (AggregateShape.isGroupOf_answered hg).width
  refine ⟨_, hrows.bind (gives_pure _), Entries.nodup_names_ofList, fun variant => ?_,
    fun variant row hmem => ?_⟩
  · rw [Query.mem_names_variantCounts hwidth, mem_keys_answered]
  · obtain ⟨g, hg, hkey, rfl⟩ := Query.group_of_mem_counts hwidth hmem
    have hrow : (variantsShape experiment goalEvent).rowOf g = variantRow experiment goalEvent variant
        (t.enrolled scope start finish experiment variant) := by
      rw [AggregateShape.rowOf, hkey, rows_of_key hg hkey]
      rfl
    rw [hrow, clampConversions_variantRow]

theorem variantCounts_pairs {e : Experiment} {w : Window} {now start finish : Instant}
    (hwindow : w.resolve? now = some (start, finish)) {t : EventTable} (ht : t.IsCountable) :
    ∃ counts, (variantCounts e.id e.goalEvent { site := e.site, window := w, now }).Gives t counts ∧
      counts.names.Nodup ∧ (∀ variant, variant ∈ counts.names ↔ t.Pairs e start finish variant) ∧
      ∀ variant row, (variant, row) ∈ counts →
        ∃ users conversions, row.IsVariantCount users conversions := by
  let scope : Scope := { site := e.site, window := w, now }
  obtain ⟨counts, hcounts, hnames, hmem, hrows⟩ :=
    @variantCounts_gives e.id e.goalEvent scope _ _ hwindow t
  refine ⟨counts, hcounts, hnames, fun variant => (hmem variant).trans pairs_iff.symm,
    fun variant row hrow => ?_⟩
  obtain ⟨event, hevent⟩ := (hmem variant).mp (List.mem_map_of_mem hrow)
  have hfew : (t.enrolled scope start finish e.id variant).length ≤ t.rows.length :=
    (List.length_filter_le _ _).trans (List.length_filter_le _ _)
  rw [hrows variant row hrow]
  exact ⟨_, _, isVariantCount_variantRow (List.ne_nil_of_mem hevent) (hfew.trans_lt ht)⟩

/-- What the rows of goals hold: texts of a goal and of its type, which may be missing, a count and
a revenue. -/
structure GoalRow.IsReadable (g : GoalRow) : Prop where
  goal : ∃ goal, g.goal = .text goal
  type : g.type = .null ∨ ∃ type, g.type = .text type
  conversions : ∃ n : ℕ, g.row.whole "conversions" = .ok (n : ℤ)
  revenue : ∃ x, g.row.get "total_revenue" = .float x

theorem isReadable_goalRows (experiment : String) {gs : List Query.Group} :
    ∀ g ∈ goalRows (gs.map fun g => (Query.keyJson g.key, (goalsShape experiment).rowOf g)),
      g.IsReadable := by
  intro g hg
  obtain ⟨⟨key, row⟩, hmem, hread⟩ := List.mem_filterMap.mp hg
  obtain ⟨group, -, heq⟩ := List.mem_map.mp hmem
  obtain ⟨rfl, rfl⟩ := Prod.mk.inj heq
  have hnames : ((goalsShape experiment).measures.map Measure.name).Nodup :=
    show ["conversions", "total_revenue"].Nodup by decide
  match hkey : group.key with
  | [] | [some _] | [none] | [_, _] | _ :: _ :: _ :: _ :: _ =>
    simp [Query.keyJson, Query.cell, hkey] at hread
  | [variant, goal, type] =>
    rw [hkey] at hread
    change (if (Query.cell variant).isNull || (Query.cell goal).isNull then none
      else some (⟨Query.cell variant, Query.cell goal, Query.cell type, _⟩ : GoalRow)) = some g at hread
    split_ifs at hread with hnull
    obtain rfl := Option.some.inj hread
    refine ⟨?_, ?_, ?_, ?_⟩
    · cases goal with
      | none => simp [Query.cell, Json.isNull] at hnull
      | some goal => exact ⟨goal, rfl⟩
    · cases type with
      | none => exact .inl rfl
      | some type => exact .inr ⟨type, rfl⟩
    · exact ⟨_, AggregateRow.whole_counting (m := .goalConversions) hnames (by simp [goalsShape]) rfl⟩
    · exact ⟨_, AggregateRow.get_counting (m := .totalRevenue) hnames (by simp [goalsShape])⟩

theorem goalsShape_isSound (experiment : String) : (goalsShape experiment).IsSound :=
  ⟨by simp [goalsShape, Filter.typeIs, Filter.payloadIs, Filter.isTest_ofTest], rfl, rfl,
    show ["group_0", "group_1", "group_2", "conversions", "total_revenue"].Nodup by decide⟩

/-- The goals of an experiment on a table: one row for each group that names a variant and a goal. -/
theorem goalBreakdown_gives_rows (experiment : String) {scope : Scope} {start finish : Instant}
    (hwindow : scope.window.resolve? scope.now = some (start, finish)) (t : EventTable) :
    (goalBreakdown experiment scope).Gives t (goalRows (((goalsShape experiment).answered
      { scope with predicate := [] } start finish t).map fun g =>
        (Query.keyJson g.key, (goalsShape experiment).rowOf g))) :=
  (AggregateShape.aggregate_gives_answered { scope with predicate := [] }
    (goalsShape_isSound experiment) hwindow t).bind (gives_pure _)

theorem goalBreakdown_gives (experiment : String) {scope : Scope} {start finish : Instant}
    (hwindow : scope.window.resolve? scope.now = some (start, finish)) (t : EventTable) :
    ∃ goals, (goalBreakdown experiment scope).Gives t goals ∧ ∀ g ∈ goals, g.IsReadable :=
  ⟨_, goalBreakdown_gives_rows experiment hwindow t, isReadable_goalRows experiment⟩

end CohortAnalytics
