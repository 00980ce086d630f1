import CohortAnalytics.Proofs.Service.Attribution
import CohortAnalytics.Proofs.Simulation.Traffic
import CohortAnalytics.Proofs.Warehouse.Events

/-!
Simulated traffic counted as it was assigned: the users of a variant are the sessions that got it,
and its conversions are those of them that checked out.
-/

namespace CohortAnalytics

namespace Visitor

variable {v : Visitor} {d : EventDraft} {event : Event} {x : String}

/-- The pairs of an event's row are the assignments of its visitor. -/
theorem Emits.variantIn?_row (h : v.Emits d event) (t : Instant) (x : String) :
    (event.row t).variantIn? x = v.assignments.find? x := by
  obtain ⟨id, moment, rfl⟩ := h
  have hpairs : ((Simulation.eventOf v d id moment).row t).pairs =
      v.assignments.map fun a => (some a.1, some a.2) := by
    simp [StoredEvent.pairs, Event.row, Simulation.eventOf, List.zip_map']
  rw [StoredEvent.variantIn?_eq, hpairs]
  induction v.assignments with
  | nil => rfl
  | cons a rest ih =>
    obtain ⟨name, variant⟩ := a
    by_cases hname : name = x
    · simp [VariantPair.isOf, Entries.find?, hname]
    · simpa [VariantPair.isOf, Entries.find?, hname] using ih

theorem Emits.not_converts (h : v.Emits d event) (hd : d.IsBrowsing) {goalEvent : String}
    (hgoal : goalEvent ∉ browsingTypes.map EventType.name) (t : Instant) :
    Measure.converts x goalEvent (event.row t) = false := by
  obtain ⟨id, moment, rfl⟩ := h
  obtain ⟨htype, hdata⟩ := hd
  have hname : d.type.name ≠ goalEvent := fun heq => hgoal (heq ▸ List.mem_map_of_mem htype)
  have hnone (name : String) :
      ((Simulation.eventOf v d id moment).row t).payload? name = none := by
    rw [StoredEvent.payload?, Event.row, Simulation.eventOf, hdata]
    rfl
  have htypeName : ((Simulation.eventOf v d id moment).row t).type = d.type.name := rfl
  rw [Measure.converts, hnone, hnone, htypeName]
  simp [hname]

theorem Emits.converts {e : Experiment} (h : v.Emits (.conversion e) event) (t : Instant) :
    Measure.converts x e.goalEvent (event.row t) = true := by
  obtain ⟨id, moment, rfl⟩ := h
  have hnamed : ((Simulation.eventOf v (.conversion e) id moment).row t).payload? "event_name" =
      some e.goalEvent := rfl
  simp [Measure.converts, hnamed]

end Visitor

/-- The rows are the events of the sessions, all of them and no others. -/
structure Record (rows : List StoredEvent) (ss : List SimulatedSession) : Prop where
  all : ∀ r ∈ ss, ∀ event ∈ r.events, ∃ t, event.row t ∈ rows
  only : ∀ row ∈ rows, ∃ r ∈ ss, ∃ event ∈ r.events, ∃ t, row = event.row t

namespace Simulation

variable {σ : Type} {source : RandomSource σ} {buckets : Bucketing} {c : SimulationConfig}
  {experiments : List Experiment} {finish : Stamp} {s s' : σ} {ss : List SimulatedSession}
  {rows : List StoredEvent} {e : Experiment} {variant : String}

theorem record_of_inOrder
    (h : List.Forall₂ (fun event row => ∃ t, row = Event.row event t) (inOrder ss) rows) :
    Record rows ss where
  all r hr event hevent := by
    obtain ⟨row, hrow, t, rfl⟩ := exists_of_forall₂ h.flip (mem_inOrder.mpr ⟨r, hr, hevent⟩)
    exact ⟨t, hrow⟩
  only row hrow := by
    obtain ⟨event, hevent, t, rfl⟩ := exists_of_forall₂ h hrow
    obtain ⟨r, hr, hmem⟩ := mem_inOrder.mp hevent
    exact ⟨r, hr, event, hmem, t, rfl⟩

def assignedTo (buckets : Bucketing) (e : Experiment) (variant : String)
    (ss : List SimulatedSession) : List SimulatedSession :=
  ss.filter fun r => e.assign? buckets r.name == some variant

theorem mem_assignedTo {r : SimulatedSession} : r ∈ assignedTo buckets e variant ss ↔
    r ∈ ss ∧ e.assign? buckets r.name = some variant := by
  rw [assignedTo, List.mem_filter, beq_iff_eq]

section Counted

variable {scope : Scope} {start last : Instant}

/-- A simulation whose events are the rows of a table, in a window that leaves none of them out. -/
structure Counted (buckets : Bucketing) (c : SimulationConfig) (experiments : List Experiment)
    (ss : List SimulatedSession) (rows : List StoredEvent) (start last : Instant) : Prop where
  sessions : ∀ r ∈ ss, ∃ begun, r.IsOf buckets c experiments begun r.name
  names : (ss.map SimulatedSession.name).Nodup
  record : Record rows ss
  covered : ∀ row ∈ rows, start.micros ≤ row.timestamp.micros ∧ row.timestamp.micros ≤ last.micros

/-- An experiment that runs, beside others with other ids. -/
structure Runs (experiments : List Experiment) (e : Experiment) : Prop where
  mem : e ∈ experiments
  distinct : (experiments.map Experiment.id).Nodup
  running : e.status = .running

variable (h : Counted buckets c experiments ss rows start last) (he : Runs experiments e)
  (hsite : scope.site = c.site)
include h he

theorem Counted.find?_assignments {r : SimulatedSession} (hr : r ∈ ss) :
    r.visitor.assignments.find? e.id = e.assign? buckets r.name := by
  obtain ⟨begun, hof⟩ := h.sessions r hr
  exact (Experiment.assign?_of_assignAll hof.assignments he.distinct he.mem he.running).symm

include hsite

/-- A row counts for the variant that its session is assigned. -/
theorem Counted.row_mem_enrolled {r : SimulatedSession} (hr : r ∈ ss) {event : Event}
    (hevent : event ∈ r.events) {t : Instant} (hrow : event.row t ∈ rows) :
    event.row t ∈ EventTable.enrolled ⟨rows⟩ scope start last e.id variant ↔
      r ∈ assignedTo buckets e variant ss := by
  obtain ⟨begun, hof⟩ := h.sessions r hr
  obtain ⟨d, hemits, -⟩ := hof.emitted hevent
  have hown : (event.row t).site = scope.site := (hof.site_eq hevent).trans hsite.symm
  obtain ⟨hstart, hlast⟩ := h.covered _ hrow
  rw [EventTable.mem_enrolled, hemits.variantIn?_row, h.find?_assignments he hr, mem_assignedTo]
  exact ⟨fun henrolled => ⟨hr, henrolled.2.2.2.2⟩,
    fun hassigned => ⟨hrow, hown, hstart, hlast, hassigned.2⟩⟩

/-- Rows that a test picks are of as many sessions as another test picks, if a session passes the one
just where one of its rows passes the other. -/
theorem Counted.sessionCount_enrolled {p : StoredEvent → Bool} {q : SimulatedSession → Bool}
    (hq : ∀ r ∈ assignedTo buckets e variant ss, q r = true →
      ∃ event ∈ r.events, ∀ t, p (event.row t) = true)
    (hp : ∀ r ∈ ss, ∀ event ∈ r.events, ∀ t, p (event.row t) = true → q r = true) :
    Measure.sessionCount ((EventTable.enrolled ⟨rows⟩ scope start last e.id variant).filter p) =
      ((assignedTo buckets e variant ss).filter q).length := by
  have hnodup : (((assignedTo buckets e variant ss).filter q).map SimulatedSession.name).Nodup :=
    h.names.sublist ((List.filter_sublist.trans List.filter_sublist).map _)
  rw [Measure.sessionCount_eq, ← List.length_map, ← List.toFinset_card_of_nodup hnodup]
  congr 1
  ext name
  simp only [List.mem_toFinset, List.mem_map, List.mem_filter]
  constructor
  · rintro ⟨row, ⟨henrolled, hpicked⟩, rfl⟩
    have hrow := (EventTable.mem_enrolled.mp henrolled).1
    obtain ⟨r, hr, event, hevent, t, rfl⟩ := h.record.only row hrow
    have hassigned := (h.row_mem_enrolled he hsite hr hevent hrow).mp henrolled
    obtain ⟨begun, hof⟩ := h.sessions r hr
    exact ⟨r, ⟨hassigned, hp r hr _ hevent t hpicked⟩, (hof.session_eq hevent).symm⟩
  · rintro ⟨r, ⟨hassigned, hpicked⟩, rfl⟩
    have hr := (mem_assignedTo.mp hassigned).1
    obtain ⟨event, hevent, hpasses⟩ := hq r hassigned hpicked
    obtain ⟨t, hrow⟩ := h.record.all r hr event hevent
    obtain ⟨begun, hof⟩ := h.sessions r hr
    have henrolled := (h.row_mem_enrolled he hsite hr hevent hrow).mpr hassigned
    exact ⟨event.row t, ⟨henrolled, hpasses t⟩, hof.session_eq hevent⟩

theorem Counted.users (hviews : 1 ≤ c.minPageViews) :
    Measure.sessionCount (EventTable.enrolled ⟨rows⟩ scope start last e.id variant) =
      (assignedTo buckets e variant ss).length := by
  have hcount : Measure.sessionCount
      ((EventTable.enrolled ⟨rows⟩ scope start last e.id variant).filter fun _ => true) =
        ((assignedTo buckets e variant ss).filter fun _ => true).length := by
    refine h.sessionCount_enrolled he hsite ?_ fun _ _ _ _ _ _ => rfl
    intro r hassigned _
    obtain ⟨begun, hof⟩ := h.sessions r (mem_assignedTo.mp hassigned).1
    obtain ⟨event, hevent⟩ := List.exists_mem_of_ne_nil _ (hof.ne_nil hviews)
    exact ⟨event, hevent, fun _ => rfl⟩
  simpa using hcount

theorem Counted.exists_enrolled_iff (hviews : 1 ≤ c.minPageViews) :
    (∃ row, row ∈ EventTable.enrolled ⟨rows⟩ scope start last e.id variant) ↔
      ∃ r ∈ ss, e.assign? buckets r.name = some variant := by
  constructor
  · rintro ⟨row, hrow⟩
    have hpos := Measure.sessionCount_pos hrow
    rw [h.users he hsite hviews] at hpos
    obtain ⟨r, hr⟩ := List.exists_mem_of_length_pos hpos
    exact ⟨r, mem_assignedTo.mp hr⟩
  · rintro ⟨r, hr, hvariant⟩
    obtain ⟨begun, hof⟩ := h.sessions r hr
    obtain ⟨event, hevent⟩ := List.exists_mem_of_ne_nil _ (hof.ne_nil hviews)
    obtain ⟨t, hrow⟩ := h.record.all r hr event hevent
    exact ⟨_, (h.row_mem_enrolled he hsite hr hevent hrow).mpr (mem_assignedTo.mpr ⟨hr, hvariant⟩)⟩

theorem Counted.conversions (hgoal : e.goalEvent ∉ browsingTypes.map EventType.name) :
    Measure.sessionCount ((EventTable.enrolled ⟨rows⟩ scope start last e.id variant).filter
        (Measure.converts e.id e.goalEvent)) =
      ((assignedTo buckets e variant ss).filter SimulatedSession.checkedOut).length := by
  refine h.sessionCount_enrolled he hsite ?_ ?_
  · intro r hassigned hout
    obtain ⟨hr, hvariant⟩ := mem_assignedTo.mp hassigned
    obtain ⟨begun, hof⟩ := h.sessions r hr
    rw [← h.find?_assignments he hr] at hvariant
    obtain ⟨event, hevent, hemits⟩ := hof.converted hout he.mem hvariant
    exact ⟨event, hevent, hemits.converts⟩
  · intro r hr event hevent t hconverts
    obtain ⟨begun, hof⟩ := h.sessions r hr
    obtain ⟨d, hemits, hbrowsing | hout⟩ := hof.emitted hevent
    · rw [hemits.not_converts hbrowsing hgoal] at hconverts
      cases hconverts
    · exact hout

end Counted

theorem fits_of_sessions {begun : Stamp}
    (hof : ∀ r ∈ ss, ∃ name, r.IsOf buckets c experiments begun name)
    (hbegun : begun.offset = finish.offset) (hoffset : ∀ o ∈ finish.offset, o.natAbs < microsPerDay)
    (hcalendar : ∀ event ∈ inOrder ss, ¬event.timestamp.LeavesCalendar) :
    ∀ event ∈ inOrder ss, event.Fits := by
  intro event hevent
  obtain ⟨r, hr, hmem⟩ := mem_inOrder.mp hevent
  obtain ⟨name, hname⟩ := hof r hr
  obtain ⟨d, ⟨id, moment, rfl⟩, -⟩ := hname.emitted hmem
  refine ⟨?_, fun o ho => hoffset o ((hname.offset.trans hbegun) ▸ ho), hcalendar _ hevent⟩
  simp only [eventOf]
  cases r.visitor.deviceType <;> decide

/-- Simulated traffic, whatever was drawn, loads into an empty table as a whole. In a window around
all of it an experiment that the site runs, with a goal that is not mere browsing, has for users of a
variant the sessions that were assigned the variant, and for conversions those of them that checked
out; a variant that no session was assigned does not appear. (Around an event that its offset takes
out of the calendar there is no window.) -/
theorem variantCounts_simulated {es : List Event}
    (hevents : eventsFrom source buckets c experiments finish s = .ok es)
    (hviews : 1 ≤ c.minPageViews) (hdistinct : (experiments.map Experiment.id).Nodup)
    (he : e ∈ experiments) (hrunning : e.status = .running) (hsite : e.site = c.site)
    (hgoal : e.goalEvent ∉ browsingTypes.map EventType.name) (hids : (es.map Event.id).Nodup)
    (hoffset : ∀ o ∈ finish.offset, o.natAbs < microsPerDay)
    (hcalendar : ∀ event ∈ es, ¬event.timestamp.LeavesCalendar) :
    ∃ ss s' t, sessions source buckets c experiments finish s = .ok (ss, s') ∧ es = inOrder ss ∧
      ss.map SimulatedSession.name = sessionNames c ∧
      EventTable.insert {} (es.map Event.members) = (t, .ok (es.length, 0)) ∧
      ∀ w now start last, Window.resolve? w now = some (start, last) →
        (∀ row ∈ t.rows,
          start.micros ≤ row.timestamp.micros ∧ row.timestamp.micros ≤ last.micros) →
        ∃ counts, (variantCounts e.id e.goalEvent ⟨c.site, w, now, []⟩).Gives t counts ∧
          counts.names.Nodup ∧
          (∀ variant, variant ∈ counts.names ↔
            ∃ r ∈ ss, e.assign? buckets r.name = some variant) ∧
          ∀ variant row, (variant, row) ∈ counts →
            row.get "users" = .int (assignedTo buckets e variant ss).length ∧
            row.get "conversions" = .int
              ((assignedTo buckets e variant ss).filter SimulatedSession.checkedOut).length := by
  obtain ⟨⟨ss, s'⟩, hsessions, hsorted⟩ := bind_ok hevents
  obtain rfl := Except.ok.inj hsorted
  obtain ⟨begun, hbegun, hforall⟩ := sessions_ok hsessions
  have hof : ∀ r ∈ ss, r.IsOf buckets c (ownExperiments c experiments) begun r.name := by
    intro r hr
    obtain ⟨name, -, hname⟩ := exists_of_forall₂ hforall hr
    exact hname.name_eq ▸ hname
  have hnames : ss.map SimulatedSession.name = sessionNames c := by
    rw [← List.map_id (sessionNames c)]
    exact (map_eq_of_forall₂ (hforall.imp fun _ _ h => h.name_eq.symm)).symm
  -- Every event fits a row, and no two have one identifier: none is turned away.
  obtain ⟨rows, hinsert, hrows⟩ := EventTable.insert_members
    (fits_of_sessions (fun r hr => ⟨_, hof r hr⟩) (startOf_ok hbegun).1 hoffset hcalendar) hids
  refine ⟨ss, s', ⟨rows⟩, hsessions, rfl, hnames, hinsert, ?_⟩
  intro w now start last hwindow hcovered
  have hcounted : Counted buckets c (ownExperiments c experiments) ss rows start last :=
    ⟨fun r hr => ⟨_, hof r hr⟩, hnames ▸ nodup_sessionNames c, record_of_inOrder hrows, hcovered⟩
  have hruns : Runs (ownExperiments c experiments) e :=
    ⟨mem_ownExperiments.mpr ⟨he, hsite⟩, nodup_ids_ownExperiments hdistinct, hrunning⟩
  obtain ⟨counts, hcounts, hnodup, hmem, hrow⟩ :=
    @variantCounts_gives e.id e.goalEvent ⟨c.site, w, now, []⟩ start last hwindow ⟨rows⟩
  refine ⟨counts, hcounts, hnodup, fun variant => ?_, fun variant row hr => ?_⟩
  · rw [hmem, hcounted.exists_enrolled_iff hruns rfl hviews]
  · rw [hrow variant row hr, users_variantRow, conversions_variantRow,
      hcounted.users hruns rfl hviews, hcounted.conversions hruns rfl hgoal]
    exact ⟨rfl, rfl⟩

section Shop

/-- A source whose shares are small at first and great after a while. -/
def waning : RandomSource ℕ where
  share n := (if n < 20 then 0.0 else 0.875, n + 1)
  below _ h n := (⟨0, h⟩, n + 1)
  block _ n := ([UInt8.ofNat n], n + 1)

def shopTraffic : SimulationConfig where
  sessions := 2
  site := "shop"
  days := 1
  clickChance := 0.0
  scrollChance := 0.0
  formChance := 0.0
  maxPageViews := 1
  deviceWeights := [.int 1, .int 0, .int 0]
  orderWeights := [.int 1, .int 0, .int 0]

/-- An experiment of the shop that counts purchases. -/
def shopExperiment (id : String) : Experiment where
  id := id
  site := "shop"
  name := "Offer"
  variants := [⟨"control", "Control", .float 0.5⟩, ⟨"offer", "Offer", .float 0.5⟩]
  goalEvent := "purchase"

def shopExperiments : List Experiment := [shopExperiment "x", shopExperiment "y"]

def second : Bucketing := fun _ => 0.75

def noon : Stamp := ⟨⟨microsPerDay + microsPerDay / 2, by decide⟩, none⟩

theorem sessions_waning :
    ∃ r ∈ (sessions waning second shopTraffic shopExperiments noon 0).toOption,
      ((r.1.flatMap SimulatedSession.events).map Event.id).Nodup ∧
        (∀ event ∈ r.1.flatMap SimulatedSession.events, ¬event.timestamp.LeavesCalendar) ∧
        (assignedTo second (shopExperiment "x") "offer" r.1).length = 2 ∧
        ((assignedTo second (shopExperiment "x") "offer" r.1).filter
          SimulatedSession.checkedOut).length = 1 := by
  decide +kernel

/-- Both sessions are shown the offer, and one of them takes it. -/
theorem variantCounts_simulated_shop : ∃ ss s' t counts row,
    sessions waning second shopTraffic shopExperiments noon 0 = .ok (ss, s') ∧
      EventTable.insert {} ((inOrder ss).map Event.members) = (t, .ok ((inOrder ss).length, 0)) ∧
      (variantCounts "x" "purchase" ⟨"shop", ever, dawn, []⟩).Gives t counts ∧
      ("offer", row) ∈ counts ∧ row.get "users" = .int 2 ∧ row.get "conversions" = .int 1 := by
  obtain ⟨⟨ss, s'⟩, hmem, hids, hcalendar, husers, hconversions⟩ := sessions_waning
  have hsessions : sessions waning second shopTraffic shopExperiments noon 0 = .ok (ss, s') := by
    revert hmem
    generalize sessions waning second shopTraffic shopExperiments noon 0 = out
    cases out <;> simp [Except.toOption]
  have hevents : eventsFrom waning second shopTraffic shopExperiments noon 0 = .ok (inOrder ss) := by
    rw [eventsFrom, hsessions]
    rfl
  have hperm : (inOrder ss).Perm (ss.flatMap SimulatedSession.events) := List.mergeSort_perm _ _
  obtain ⟨ss', s'', t, hsessions', -, -, hinsert, hcounts⟩ := variantCounts_simulated
    (e := shopExperiment "x") hevents (by decide) (by decide) List.mem_cons_self rfl rfl (by decide)
    ((hperm.map _).nodup_iff.mpr hids) (by simp [noon]) fun event hevent =>
      hcalendar event (hperm.subset hevent)
  obtain ⟨rfl, rfl⟩ := Prod.mk.inj (Except.ok.inj (hsessions.symm.trans hsessions'))
  obtain ⟨counts, hgives, -, hnames, hrows⟩ :=
    hcounts ever dawn dawn dusk rfl fun row _ => within_ever row.timestamp
  obtain ⟨r, hr⟩ := List.exists_mem_of_length_pos (Nat.lt_of_lt_of_eq two_pos husers.symm)
  obtain ⟨⟨variant, row⟩, hrow, rfl⟩ :=
    List.mem_map.mp ((hnames "offer").mpr ⟨r, mem_assignedTo.mp hr⟩)
  obtain ⟨hrowUsers, hrowConversions⟩ := hrows _ row hrow
  rw [husers] at hrowUsers
  rw [hconversions] at hrowConversions
  exact ⟨ss, s', t, counts, row, hsessions, hinsert, hgives, hrow, hrowUsers, hrowConversions⟩

end Shop

end Simulation

end CohortAnalytics
