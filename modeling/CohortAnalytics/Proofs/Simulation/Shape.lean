import CohortAnalytics.Proofs.Simulation.Counts

/-!
The shape of simulated sessions. However the events of many sessions are mixed when they are put in
order of time, those of one session keep the order in which they were emitted: a page view first, the
others at a visitor's pace, all with the circumstances of their visitor, and each goal one of an
experiment that the visitor takes part in.
-/

namespace CohortAnalytics

namespace Timeline

variable {es : List Event} {t t' : Instant}

theorem starts {e : Event} (h : Timeline t (e :: es) t') : e.timestamp.wall = t := by
  cases h
  rfl

theorem isChain (h : Timeline t es t') :
    es.IsChain fun e next => Paced e.timestamp.wall next.timestamp.wall := by
  induction h with
  | nil => exact .nil
  | @cons e es t t' hnext hrest ih =>
    refine List.isChain_cons.mpr ⟨fun next hhead => ?_, ih⟩
    obtain ⟨rest, rfl⟩ := List.head?_eq_some_iff.mp hhead
    rwa [hrest.starts]

/-- Each event is at most 90 seconds after the one before it. -/
theorem micros_le (h : Timeline t es t') {n : ℕ} {e : Event} (he : es[n]? = some e) :
    e.timestamp.wall.micros ≤ t.micros + 90 * n * microsPerSecond := by
  induction h generalizing n with
  | nil => simp at he
  | @cons first es t t' hnext hrest ih =>
    obtain ⟨seconds, -, hseconds, hmicros⟩ := hnext
    cases n with
    | zero =>
      obtain rfl := Option.some.inj he
      exact Nat.le_add_right _ _
    | succ n =>
      have hstep := Nat.mul_le_mul_right microsPerSecond hseconds
      have hlater := ih (n := n) he
      rw [hmicros] at hlater
      linarith [hlater, hstep]

theorem le_micros (h : Timeline t es t') : ∀ e ∈ es, t.micros ≤ e.timestamp.wall.micros := by
  induction h with
  | nil => exact fun e he => absurd he List.not_mem_nil
  | @cons first es t t' hnext hrest ih =>
    obtain ⟨seconds, -, -, hmicros⟩ := hnext
    intro e he
    rcases List.mem_cons.mp he with rfl | he
    · exact le_rfl
    · exact (Nat.le_add_right _ _).trans (hmicros ▸ ih e he)

theorem increasing (h : Timeline t es t') :
    es.Pairwise fun e next => e.timestamp.wall.micros < next.timestamp.wall.micros := by
  induction h with
  | nil => exact .nil
  | @cons first es t t' hnext hrest ih =>
    obtain ⟨seconds, hseconds, -, hmicros⟩ := hnext
    refine .cons (fun e he => ?_) ih
    have hlater := hrest.le_micros e he
    have hpos : 0 < seconds * microsPerSecond := Nat.mul_pos (by omega) (by decide)
    omega

end Timeline

/-- What an event tells of its visitor besides the experiments. -/
def Event.circumstances (e : Event) : String × DeviceType × String × String × String × ℤ :=
  (e.site, e.deviceType, e.referrer, e.userAgent, e.userLanguage, e.viewportWidth)

/-- The payload names an experiment that the visitor was entered into, the variant that it chose, and
one of its goals. -/
def Event.NamesGoal (buckets : Bucketing) (experiments : List Experiment) (visitor : String)
    (e : Event) : Prop :=
  ∃ x ∈ experiments, ∃ variant, x.runningVariant buckets visitor = .ok (some variant) ∧
    (x.id, variant) ∈ e.experimentIds.zip e.variantIds ∧
    Entries.find? "experiment_id" e.data = some (.text x.id) ∧
    Entries.find? "variant_id" e.data = some (.text variant) ∧
    ∃ g ∈ x.goals, Entries.find? "goal_id" e.data = some (.text g.id)

namespace Visitor

variable {v : Visitor} {d d' : EventDraft} {e e' : Event}

theorem Emits.circumstances_eq (h : v.Emits d e) (h' : v.Emits d' e') :
    e.circumstances = e'.circumstances := by
  obtain ⟨id, t, rfl⟩ := h
  obtain ⟨id', t', rfl⟩ := h'
  rfl

theorem Emits.pairs (h : v.Emits d e) : e.experimentIds.length = e.variantIds.length ∧
    e.experimentIds.zip e.variantIds = v.assignments := by
  obtain ⟨id, t, rfl⟩ := h
  simp [Simulation.eventOf, List.zip_map']

end Visitor

namespace Simulation

variable {experiments : List Experiment} {assignments : Entries String} {order : Number}
  {d : EventDraft}

theorem goalDraft_of_mem (h : d ∈ checkoutDrafts experiments assignments order)
    (hgoal : d.type = .experimentGoal) :
    ∃ x ∈ experiments, ∃ variant, assignments.find? x.id = some variant ∧
      ∃ g ∈ x.goals, d = goalDraft x variant order g := by
  obtain ⟨x, hx, h⟩ := List.mem_flatMap.mp h
  cases hvariant : assignments.find? x.id with
  | none => simp [hvariant] at h
  | some variant =>
    rw [hvariant] at h
    rcases List.mem_cons.mp h with rfl | h
    · cases hgoal
    · obtain ⟨g, hg, rfl⟩ := List.mem_map.mp h
      exact ⟨x, hx, variant, hvariant, g, hg, rfl⟩

/-- The shape of one visitor's events, in the order in which they were emitted. -/
structure Shaped (buckets : Bucketing) (c : SimulationConfig) (experiments : List Experiment)
    (finish : Stamp) (visitor : String) (es : List Event) : Prop where
  opens : ∃ first rest, es = first :: rest ∧ first.type = .pageView ∧
    finish.wall.micros - c.days * secondsPerDay * microsPerSecond ≤ first.timestamp.wall.micros ∧
    first.timestamp.wall.micros ≤ finish.wall.micros
  paced : es.IsChain fun e next => Paced e.timestamp.wall next.timestamp.wall
  increasing : es.Pairwise fun e next => e.timestamp.wall.micros < next.timestamp.wall.micros
  late : ∀ n e, es[n]? = some e →
    e.timestamp.wall.micros ≤ finish.wall.micros + 90 * n * microsPerSecond
  offset : ∀ e ∈ es, e.timestamp.offset = finish.offset
  alike : ∀ e ∈ es, ∀ e' ∈ es, e.circumstances = e'.circumstances
  site : ∀ e ∈ es, e.site = c.site
  assigned : ∃ assigned, assignAll buckets experiments visitor = .ok assigned ∧
    ∀ e ∈ es, e.experimentIds.length = e.variantIds.length ∧
      e.experimentIds.zip e.variantIds = assigned
  goals : ∀ e ∈ es, e.type = .experimentGoal → e.NamesGoal buckets experiments visitor

end Simulation

namespace SimulatedSession

open Simulation

variable {buckets : Bucketing} {c : SimulationConfig} {experiments : List Experiment}
  {start finish : Stamp} {name : String} {r : SimulatedSession} {e : Event}

theorem IsOf.namesGoal (h : r.IsOf buckets c experiments start name)
    (hdistinct : (experiments.map Experiment.id).Nodup) (he : e ∈ r.events)
    (hgoal : e.type = .experimentGoal) : e.NamesGoal buckets experiments name := by
  obtain ⟨d, hemits, hdrafted⟩ := h.drafted he
  have hpairs := hemits.pairs.2
  obtain ⟨id, t, rfl⟩ := hemits
  rcases hdrafted with ⟨hbrowsing, -⟩ | ⟨-, order, hd⟩
  · have hgoal : d.type = .experimentGoal := hgoal
    simp [browsingTypes, hgoal] at hbrowsing
  · obtain ⟨x, hx, variant, hvariant, g, hg, rfl⟩ := goalDraft_of_mem hd hgoal
    have hchosen := Experiment.find?_assigned hdistinct hx h.assignments
    rw [hvariant] at hchosen
    exact ⟨x, hx, variant, hchosen, hpairs ▸ Entries.mem_of_find? hvariant, rfl, rfl, g, hg, rfl⟩

theorem IsOf.shaped (h : r.IsOf buckets c experiments start name)
    (hstart : startOf c finish = .ok start) (hviews : 1 ≤ c.minPageViews)
    (hdistinct : (experiments.map Experiment.id).Nodup) :
    Shaped buckets c experiments finish name r.events := by
  obtain ⟨hoffset, hmicros⟩ := startOf_ok hstart
  obtain ⟨t, t', hlow, hhigh, htimeline⟩ := h.timeline
  have hbegins : t.micros ≤ finish.wall.micros := by omega
  refine ⟨?_, htimeline.isChain, htimeline.increasing, fun n e he => ?_, fun e he => ?_,
    fun e he e' he' => ?_, fun e he => h.site_eq he, ⟨_, h.assignments, fun e he => ?_⟩,
    fun e he hgoal => h.namesGoal hdistinct he hgoal⟩
  · obtain ⟨first, rest, hevents, htype⟩ := h.opens hviews
    rw [hevents] at htimeline
    refine ⟨first, rest, hevents, htype, ?_, ?_⟩
    · rw [htimeline.starts]
      omega
    · rw [htimeline.starts]
      exact hbegins
  · exact (htimeline.micros_le he).trans (Nat.add_le_add_right hbegins _)
  · obtain ⟨d, ⟨id, moment, rfl⟩, -⟩ := h.emitted he
    exact h.offset.trans hoffset
  · obtain ⟨d, hemits, -⟩ := h.emitted he
    obtain ⟨d', hemits', -⟩ := h.emitted he'
    exact hemits.circumstances_eq hemits'
  · obtain ⟨d, hemits, -⟩ := h.emitted he
    exact hemits.pairs

end SimulatedSession

namespace Simulation

variable {σ : Type} {source : RandomSource σ} {buckets : Bucketing} {c : SimulationConfig}
  {experiments : List Experiment} {finish : Stamp} {s : σ} {ss : List SimulatedSession}
  {r : SimulatedSession}

theorem eventLe_iff {a b : Event} : eventLe a b = true ↔
    a.timestamp.wall.micros < b.timestamp.wall.micros ∨
      a.timestamp.wall.micros = b.timestamp.wall.micros ∧ a.id ≤ b.id := by
  simp [eventLe]

theorem eventLe_trans (a b d : Event) (h : eventLe a b = true) (h' : eventLe b d = true) :
    eventLe a d = true := by
  rw [eventLe_iff] at *
  rcases h with h | ⟨h, hid⟩
  · exact .inl (by omega)
  · rcases h' with h' | ⟨h', hid'⟩
    · exact .inl (by omega)
    · exact .inr ⟨h.trans h', String.le_trans hid hid'⟩

theorem eventLe_total (a b : Event) : (eventLe a b || eventLe b a) = true := by
  rw [Bool.or_eq_true, eventLe_iff, eventLe_iff]
  rcases lt_trichotomy a.timestamp.wall.micros b.timestamp.wall.micros with h | h | h
  · exact .inl (.inl h)
  · exact (String.le_total a.id b.id).imp (fun hid => .inr ⟨h, hid⟩) fun hid => .inr ⟨h.symm, hid⟩
  · exact .inr (.inl h)

theorem filter_flatMap_events (hdistinct : (ss.map SimulatedSession.name).Nodup)
    (hnamed : ∀ r ∈ ss, ∀ e ∈ r.events, e.session = r.name) (hr : r ∈ ss) :
    (ss.flatMap SimulatedSession.events).filter (·.session == r.name) = r.events := by
  induction ss with
  | nil => exact absurd hr List.not_mem_nil
  | cons first rest ih =>
    obtain ⟨hout, hdistinct⟩ := List.nodup_cons.mp hdistinct
    have hrest : ∀ r ∈ rest, r.name ≠ first.name := fun r hr heq =>
      hout (heq ▸ List.mem_map_of_mem hr)
    rw [List.flatMap_cons, List.filter_append]
    rcases List.mem_cons.mp hr with rfl | hr
    · have hothers : (rest.flatMap SimulatedSession.events).filter (·.session == r.name) = [] := by
        rw [List.filter_eq_nil_iff]
        intro e he
        obtain ⟨other, hother, he⟩ := List.mem_flatMap.mp he
        rw [hnamed other (List.mem_cons_of_mem _ hother) e he, beq_iff_eq]
        exact hrest other hother
      have hown : r.events.filter (·.session == r.name) = r.events :=
        List.filter_eq_self.mpr fun e he => beq_iff_eq.mpr (hnamed r List.mem_cons_self e he)
      rw [hothers, hown, List.append_nil]
    · have hfirst : first.events.filter (·.session == r.name) = [] := by
        rw [List.filter_eq_nil_iff]
        intro e he
        rw [hnamed first List.mem_cons_self e he, beq_iff_eq]
        exact (hrest r hr).symm
      rw [hfirst, List.nil_append]
      exact ih hdistinct (fun r hr => hnamed r (List.mem_cons_of_mem _ hr)) hr

/-- Ties between events of different sessions may be broken anyhow: no session has two events at one
moment. -/
theorem filter_inOrder (hdistinct : (ss.map SimulatedSession.name).Nodup)
    (hnamed : ∀ r ∈ ss, ∀ e ∈ r.events, e.session = r.name) (hr : r ∈ ss)
    (hincreasing : r.events.Pairwise fun e next =>
      e.timestamp.wall.micros < next.timestamp.wall.micros) :
    (inOrder ss).filter (·.session == r.name) = r.events := by
  have hown := filter_flatMap_events hdistinct hnamed hr
  have hsorted : r.events.Pairwise fun e next => eventLe e next = true :=
    hincreasing.imp fun hlt => eventLe_iff.mpr (.inl hlt)
  have hsublist : r.events.Sublist (inOrder ss) :=
    List.sublist_mergeSort eventLe_trans eventLe_total hsorted (hown ▸ List.filter_sublist)
  have hperm : ((inOrder ss).filter (·.session == r.name)).Perm r.events :=
    hown ▸ (List.mergeSort_perm _ _).filter _
  have hkept : (r.events.filter (·.session == r.name)).Sublist
      ((inOrder ss).filter (·.session == r.name)) := hsublist.filter _
  rw [List.filter_eq_self.mpr fun e he => beq_iff_eq.mpr (hnamed r hr e he)] at hkept
  exact (hkept.eq_of_length hperm.length_eq.symm).symm

/-- Simulated traffic, whatever was drawn, is the events of its sessions in order of time. Those of one
session are found in it in the order in which they were emitted, and they have the shape of a visit. -/
theorem sessions_shaped {es : List Event}
    (hevents : eventsFrom source buckets c experiments finish s = .ok es)
    (hviews : 1 ≤ c.minPageViews) (hdistinct : (experiments.map Experiment.id).Nodup) :
    ∃ ss s', sessions source buckets c experiments finish s = .ok (ss, s') ∧
      ss.map SimulatedSession.name = sessionNames c ∧
      es.Perm (ss.flatMap SimulatedSession.events) ∧
      es.Pairwise (fun e next => eventLe e next = true) ∧
      ∀ r ∈ ss, es.filter (·.session == r.name) = r.events ∧
        Shaped buckets c (ownExperiments c experiments) finish r.name r.events := by
  obtain ⟨⟨ss, s'⟩, hsessions, hsorted⟩ := bind_ok hevents
  obtain rfl := Except.ok.inj hsorted
  obtain ⟨start, hstart, hnames, hof⟩ := sessions_isOf hsessions
  refine ⟨ss, s', hsessions, hnames, List.mergeSort_perm _ _,
    List.pairwise_mergeSort eventLe_trans eventLe_total _, fun r hr => ?_⟩
  have hshaped := (hof r hr).shaped hstart hviews (nodup_ids_ownExperiments hdistinct)
  exact ⟨filter_inOrder (hnames ▸ nodup_sessionNames c) (fun r hr e he => (hof r hr).session_eq he)
    hr hshaped.increasing, hshaped⟩

/-- The offer of the shop, with the orders that it brings as its goal. -/
def rewardedOffer : Experiment :=
  { shopExperiment "x" with goals := [⟨"order", "Order", .revenue, true, none⟩] }

theorem sessions_rewarded :
    ∃ r ∈ (sessions waning second shopTraffic [rewardedOffer] noon 0).toOption,
      ∃ e ∈ r.1.flatMap SimulatedSession.events, e.type = .experimentGoal := by
  decide +kernel

theorem sessions_shaped_rewarded : ∃ es,
    eventsFrom waning second shopTraffic [rewardedOffer] noon 0 = .ok es ∧
      (∃ e ∈ es, e.type = .experimentGoal ∧
        e.NamesGoal second (ownExperiments shopTraffic [rewardedOffer]) e.session) ∧
      ∀ name ∈ sessionNames shopTraffic,
        Shaped second shopTraffic (ownExperiments shopTraffic [rewardedOffer]) noon name
          (es.filter (·.session == name)) := by
  obtain ⟨⟨ss, s'⟩, hmem, e, he, hgoal⟩ := sessions_rewarded
  have hsessions := ok_of_mem_toOption hmem
  have hevents : eventsFrom waning second shopTraffic [rewardedOffer] noon 0 = .ok (inOrder ss) := by
    rw [eventsFrom, hsessions]
    rfl
  obtain ⟨ss', s'', hsessions', hnames, hperm, -, hshaped⟩ :=
    sessions_shaped hevents (by decide) (by decide)
  obtain ⟨rfl, rfl⟩ := Prod.mk.inj (Except.ok.inj (hsessions.symm.trans hsessions'))
  have hall : ∀ name ∈ sessionNames shopTraffic,
      Shaped second shopTraffic (ownExperiments shopTraffic [rewardedOffer]) noon name
        ((inOrder ss).filter (·.session == name)) := by
    intro name hname
    rw [← hnames] at hname
    obtain ⟨r, hr, rfl⟩ := List.mem_map.mp hname
    obtain ⟨hown, hshape⟩ := hshaped r hr
    rwa [hown]
  refine ⟨inOrder ss, hevents, ⟨e, hperm.mem_iff.mpr he, hgoal, ?_⟩, hall⟩
  obtain ⟨r, hr, he⟩ := List.mem_flatMap.mp he
  obtain ⟨hown, hshape⟩ := hshaped r hr
  have hsession : e ∈ (inOrder ss).filter (·.session == r.name) := hown ▸ he
  rw [beq_iff_eq.mp (List.mem_filter.mp hsession).2]
  exact hshape.goals e he hgoal

end Simulation

end CohortAnalytics
