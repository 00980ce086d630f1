import CohortAnalytics.Proofs.Service.VariantAnswers

/-!
Goals of other experiments. A goal event names one experiment, yet it also converts its session for
the others if its event name is the goal that they count, or if they count events of its type.
-/

namespace CohortAnalytics

open Inquiry

namespace StoredEvent

variable {e : StoredEvent} {experiment goalEvent : String}

/-- A goal event that names another experiment. -/
def isForeignGoal (experiment : String) (e : StoredEvent) : Bool :=
  e.type == goalType && (e.payload? "experiment_id").any (· != experiment)

theorem converts_of_isForeignGoal (h : e.isForeignGoal experiment = true) :
    Measure.converts experiment goalEvent e = true ↔
      goalEvent = goalType ∨ e.payload? "event_name" = some goalEvent := by
  obtain ⟨htype, other, hother, hne⟩ : e.type = goalType ∧
      ∃ other, e.payload? "experiment_id" = some other ∧ other ≠ experiment := by
    simpa [isForeignGoal, Option.any_eq_true] using h
  have hnamed : (some other == some experiment) = false := by simpa using hne
  rw [Measure.converts, htype, hother, hnamed, Bool.and_false, Bool.or_false, Bool.or_eq_true,
    beq_iff_eq, beq_iff_eq, eq_comm (a := goalType)]

end StoredEvent

/-- Of some events all sessions are left just if each event has one of its session among them. -/
theorem Measure.sessionCount_filter_eq_iff {p : StoredEvent → Bool} {rows : List StoredEvent} :
    sessionCount (rows.filter p) = sessionCount rows ↔
      ∀ e ∈ rows, ∃ e' ∈ rows, p e' = true ∧ e'.session = e.session := by
  have hsub : ((rows.filter p).map StoredEvent.session).toFinset ⊆
      (rows.map StoredEvent.session).toFinset := by
    intro s hs
    obtain ⟨e, he, rfl⟩ := List.mem_map.mp (List.mem_toFinset.mp hs)
    exact List.mem_toFinset.mpr (List.mem_map_of_mem (List.mem_filter.mp he).1)
  rw [sessionCount_eq, sessionCount_eq]
  constructor
  · intro heq e he
    have hsame := Finset.eq_of_subset_of_card_le hsub heq.ge
    have hmem : e.session ∈ (rows.map StoredEvent.session).toFinset :=
      List.mem_toFinset.mpr (List.mem_map_of_mem he)
    rw [← hsame, List.mem_toFinset, List.mem_map] at hmem
    obtain ⟨e', he', hsession⟩ := hmem
    exact ⟨e', (List.mem_filter.mp he').1, (List.mem_filter.mp he').2, hsession⟩
  · intro hall
    refine congrArg Finset.card (hsub.antisymm fun s hs => ?_)
    obtain ⟨e, he, rfl⟩ := List.mem_map.mp (List.mem_toFinset.mp hs)
    obtain ⟨e', he', hp, hsession⟩ := hall e he
    exact List.mem_toFinset.mpr
      (List.mem_map.mpr ⟨e', List.mem_filter.mpr ⟨he', hp⟩, hsession⟩)

theorem EventTable.enrolled_only (p : StoredEvent → Bool) (t : EventTable) (scope : Scope)
    (start finish : Instant) (experiment variant : String) :
    (t.only p).enrolled scope start finish experiment variant =
      (t.enrolled scope start finish experiment variant).filter p := by
  rw [enrolled, enrolled, Scope.events, Scope.events, only, List.filter_filter, List.filter_filter,
    List.filter_filter, List.filter_filter]
  exact List.filter_congr fun e _ => by ac_rfl

section Kept

variable {experiment goalEvent : String} {events : List StoredEvent}

/-- Each goal of another experiment that converts is made up for by another event of its session. -/
def AreMadeUpFor (experiment goalEvent : String) (events : List StoredEvent) : Prop :=
  ∀ e ∈ events, e.isForeignGoal experiment = true →
    (goalEvent = goalType ∨ e.payload? "event_name" = some goalEvent) →
    ∃ e' ∈ events, e'.isForeignGoal experiment = false ∧
      Measure.converts experiment goalEvent e' = true ∧ e'.session = e.session

theorem areMadeUpFor_iff : AreMadeUpFor experiment goalEvent events ↔
    ∀ e ∈ events.filter (Measure.converts experiment goalEvent),
      ∃ e' ∈ events.filter (Measure.converts experiment goalEvent),
        (!e'.isForeignGoal experiment) = true ∧ e'.session = e.session := by
  simp only [List.mem_filter, Bool.not_eq_true']
  constructor
  · rintro h e ⟨he, hconverts⟩
    cases hforeign : e.isForeignGoal experiment with
    | false => exact ⟨e, ⟨he, hconverts⟩, hforeign, rfl⟩
    | true =>
      obtain ⟨e', he', hown, hconverts', hsession⟩ :=
        h e he hforeign ((StoredEvent.converts_of_isForeignGoal hforeign).mp hconverts)
      exact ⟨e', ⟨he', hconverts'⟩, hown, hsession⟩
  · intro h e he hforeign hgoal
    obtain ⟨e', ⟨he', hconverts'⟩, hown, hsession⟩ :=
      h e ⟨he, (StoredEvent.converts_of_isForeignGoal hforeign).mpr hgoal⟩
    exact ⟨e', he', hown, hconverts', hsession⟩

theorem conversions_kept_iff (variant : String) :
    (variantRow experiment goalEvent variant
        (events.filter fun e => !e.isForeignGoal experiment)).get "conversions" =
      (variantRow experiment goalEvent variant events).get "conversions" ↔
        AreMadeUpFor experiment goalEvent events := by
  have hfilter : (events.filter fun e => !e.isForeignGoal experiment).filter
      (Measure.converts experiment goalEvent) =
        (events.filter (Measure.converts experiment goalEvent)).filter fun e =>
          !e.isForeignGoal experiment := by
    rw [List.filter_filter, List.filter_filter]
    exact List.filter_congr fun e _ => Bool.and_comm _ _
  rw [conversions_variantRow, conversions_variantRow, Number.int.injEq, Nat.cast_inj, hfilter,
    Measure.sessionCount_filter_eq_iff, areMadeUpFor_iff]

end Kept

/-- Without the goals of other experiments a variant that is still reported has the same conversions
just if the goals among them that convert are made up for. They convert where events of their type are
counted, or events of their name. -/
theorem conversions_without_foreign_goals (experiment goalEvent : String) {scope : Scope}
    {start finish : Instant} (hwindow : scope.window.resolve? scope.now = some (start, finish))
    (t : EventTable) :
    ∃ before after, (variantCounts experiment goalEvent scope).Gives t before ∧
      (variantCounts experiment goalEvent scope).Gives (t.only fun e => !e.isForeignGoal experiment)
        after ∧
      ∀ variant row, (variant, row) ∈ after → ∃ row', (variant, row') ∈ before ∧
        (row.get "conversions" = row'.get "conversions" ↔ AreMadeUpFor experiment goalEvent
          (t.enrolled scope start finish experiment variant)) := by
  obtain ⟨before, hbefore, -, hmem, hrows⟩ := variantCounts_gives experiment goalEvent hwindow t
  obtain ⟨after, hafter, -, hmem', hrows'⟩ := variantCounts_gives experiment goalEvent hwindow
    (t.only fun e => !e.isForeignGoal experiment)
  refine ⟨before, after, hbefore, hafter, fun variant row hrow => ?_⟩
  obtain ⟨event, hevent⟩ := (hmem' variant).mp (List.mem_map_of_mem hrow)
  rw [EventTable.enrolled_only, List.mem_filter] at hevent
  obtain ⟨⟨variant, row'⟩, hrow', rfl⟩ := List.mem_map.mp ((hmem _).mpr ⟨event, hevent.1⟩)
  refine ⟨row', hrow', ?_⟩
  rw [hrows _ _ hrow', hrows' _ _ hrow, EventTable.enrolled_only]
  exact conversions_kept_iff variant

section Overlapping

/-- A page view of a session that takes part in two experiments. -/
def sharedView : StoredEvent :=
  { AggregateShape.clickAt "s" with
    type := "page_view", experimentIds := [some "a", some "b"], variantIds := [some "u", some "w"] }

/-- A goal of the second experiment, whose event name is the one that the first counts. -/
def sharedGoal : StoredEvent :=
  { sharedView with
    type := goalType
    data := .object [("experiment_id", .text "b"), ("event_name", .text "signup")] }

def overlapping : EventTable := ⟨[sharedView, sharedGoal]⟩

def ownOnly (t : EventTable) : EventTable := t.only fun e => !e.isForeignGoal "a"

theorem sharedView_enrolled {t : EventTable} (h : sharedView ∈ t.rows) :
    sharedView ∈ t.enrolled (AggregateShape.momentAt "s") default default "a" "u" :=
  EventTable.mem_enrolled.mpr ⟨h, rfl, le_rfl, le_rfl, by decide +kernel⟩

theorem sharedView_kept : sharedView ∈ (ownOnly overlapping).rows :=
  List.mem_filter.mpr ⟨List.mem_cons_self, by decide +kernel⟩

theorem conversions_overlapping (goalEvent : String) {t : EventTable} (h : sharedView ∈ t.rows) :
    ∃ counts row, (variantCounts "a" goalEvent (AggregateShape.momentAt "s")).Gives t counts ∧
      ("u", row) ∈ counts ∧ row.get "conversions" = .int (Measure.sessionCount
        ((t.enrolled (AggregateShape.momentAt "s") default default "a" "u").filter
          (Measure.converts "a" goalEvent))) := by
  obtain ⟨counts, hcounts, -, hmem, hrows⟩ := @variantCounts_gives "a" goalEvent
    (AggregateShape.momentAt "s") default default rfl t
  obtain ⟨⟨variant, row⟩, hrow, rfl⟩ := List.mem_map.mp ((hmem "u").mpr ⟨_, sharedView_enrolled h⟩)
  refine ⟨counts, row, hcounts, hrow, ?_⟩
  rw [hrows _ _ hrow]
  exact conversions_variantRow

/-- The goal of the second experiment converts its session for the first one as well. -/
theorem converts_by_foreign_goal : ∃ before after row row',
    (variantCounts "a" "signup" (AggregateShape.momentAt "s")).Gives overlapping before ∧
      (variantCounts "a" "signup" (AggregateShape.momentAt "s")).Gives (ownOnly overlapping) after ∧
      ("u", row) ∈ before ∧ ("u", row') ∈ after ∧
      row.get "conversions" = .int 1 ∧ row'.get "conversions" = .int 0 := by
  obtain ⟨before, row, hbefore, hrow, hconversions⟩ :=
    @conversions_overlapping "signup" overlapping List.mem_cons_self
  obtain ⟨after, row', hafter, hrow', hconversions'⟩ :=
    conversions_overlapping "signup" sharedView_kept
  refine ⟨before, after, row, row', hbefore, hafter, hrow, hrow', hconversions.trans ?_,
    hconversions'.trans ?_⟩
  · decide +kernel
  · decide +kernel

/-- Where the first experiment counts events of another name, its conversions stay as they are. -/
theorem conversions_without_foreign_goals_purchase : ∃ before after row row',
    (variantCounts "a" "purchase" (AggregateShape.momentAt "s")).Gives overlapping before ∧
      (variantCounts "a" "purchase" (AggregateShape.momentAt "s")).Gives (ownOnly overlapping) after ∧
      ("u", row) ∈ after ∧ ("u", row') ∈ before ∧ row.get "conversions" = row'.get "conversions" := by
  have hwindow : (AggregateShape.momentAt "s").window.resolve? (AggregateShape.momentAt "s").now =
      some (default, default) := rfl
  obtain ⟨before, after, hbefore, hafter, hrows⟩ :=
    conversions_without_foreign_goals "a" "purchase" hwindow overlapping
  obtain ⟨counts, row, hcounts, hrow, -⟩ := conversions_overlapping "purchase" sharedView_kept
  obtain rfl := Gives.unique hafter hcounts
  obtain ⟨row', hrow', hkept⟩ := hrows "u" row hrow
  refine ⟨before, after, row, row', hbefore, hafter, hrow, hrow', hkept.mpr ?_⟩
  intro e he _ hgoal
  have hnone : ∀ e ∈ overlapping.rows,
      ¬("purchase" = goalType ∨ e.payload? "event_name" = some "purchase") := by
    decide +kernel
  exact absurd hgoal (hnone e (EventTable.mem_enrolled.mp he).1)

end Overlapping

end CohortAnalytics
