import CohortAnalytics.Proofs.Service.Coherence
import CohortAnalytics.Proofs.Service.CohortTallies

/-!
Labels in a report. The groups of a query have different keys, and pages and variants are shown by
theirs. A device and a goal type without a name are shown by another text, so that two groups may
come under one label.
-/

namespace CohortAnalytics

open Inquiry

namespace CohortReport

/-- The labels of a report on these events. Devices have different ones unless there are events
without a device and events with an empty one. -/
structure IsLabelled (r : CohortReport) (events : List StoredEvent) : Prop where
  pages : (r.topPages.map PageRow.path).Nodup
  devices : (r.devices.map DeviceRow.deviceType).Nodup ↔
    ¬((∃ e ∈ events, e.deviceType = none) ∧ ∃ e ∈ events, e.deviceType = some "")

variable {r : CohortReport} {limit : ℤ} {scope : Scope} {start finish : Instant} {t : EventTable}

theorem Counts.nodup_pages (h : r.Counts limit scope start finish t) :
    (r.topPages.map PageRow.path).Nodup := by
  have hpaths : ((pagesShape (some limit)).answered scope start finish t).map
      (fun g => (Query.keyJson g.key).display) = r.topPages.map PageRow.path :=
    map_eq_of_forall₂ (h.topPages.imp fun _ _ hp => hp.path.symm)
  have hkeys := (pagesShape (some limit)).nodup_keys scope start finish t
  have hnamed : ∀ key ∈ ((pagesShape (some limit)).answered scope start finish t).map
      Query.Group.key, ∃ path, key = [some path] := by
    intro key hkey
    obtain ⟨g, hg, rfl⟩ := List.mem_map.mp hkey
    obtain ⟨e, he, hgroup⟩ := (AggregateShape.isGroupOf_answered hg).inhabited (by simp [pagesShape])
    have hpath : e.pagePath.any (· != "") = true := by
      simpa [pagesShape, Filter.lets, Filter.hasPath, Filter.ofTest, Clause.test,
        Clause.holds_single, allHold, EventTest.holds] using (List.mem_filter.mp he).2
    cases hsome : e.pagePath with
    | none =>
      rw [hsome] at hpath
      cases hpath
    | some path => exact ⟨path, by rw [← hgroup, ← hsome]; rfl⟩
  rw [← hpaths, ← Function.comp_def (fun key => (Query.keyJson key).display), ← List.map_map]
  refine List.Nodup.map_on (fun key hkey other hother hsame => ?_) hkeys
  obtain ⟨path, rfl⟩ := hnamed key hkey
  obtain ⟨path', rfl⟩ := hnamed other hother
  rw [show path = path' from hsame]

theorem label_of_device (device : Option String) :
    (if (Query.keyJson [device]).isNothing then "" else (Query.keyJson [device]).display) =
      device.getD "" := by
  cases device with
  | none => rfl
  | some name =>
    change (if name.isEmpty = true then "" else name) = name
    split_ifs with hempty
    · exact (String.isEmpty_iff.mp hempty).symm
    · rfl

/-- Two devices are shown alike where one is empty and the other missing. -/
theorem eq_of_getD {device other : Option String} (h : device.getD "" = other.getD "")
    (hne : ¬(device = none ∧ other = some "" ∨ device = some "" ∧ other = none)) :
    device = other := by
  cases device <;> cases other <;> simp_all

theorem Counts.nodup_devices (h : r.Counts limit scope start finish t) :
    (r.devices.map DeviceRow.deviceType).Nodup ↔
      ¬((∃ e ∈ scope.events start finish t, e.deviceType = none) ∧
        ∃ e ∈ scope.events start finish t, e.deviceType = some "") := by
  let label (key : List (Option String)) : String :=
    if (Query.keyJson key).isNothing then "" else (Query.keyJson key).display
  have hlabels : (devicesShape.answered scope start finish t).map (fun g => label g.key) =
      r.devices.map DeviceRow.deviceType :=
    map_eq_of_forall₂ (h.devices.imp fun _ _ hd => hd.deviceType.symm)
  have hkeys := devicesShape.nodup_keys scope start finish t
  have hevents : devicesShape.events scope start finish t = scope.events start finish t :=
    List.filter_eq_self.mpr fun _ _ => rfl
  have hmem (key : List (Option String)) :
      key ∈ (devicesShape.answered scope start finish t).map Query.Group.key ↔
        ∃ e ∈ scope.events start finish t, [e.deviceType] = key := by
    rw [AggregateShape.mem_keys rfl (by simp [devicesShape]), hevents]
    rfl
  rw [← hlabels, ← Function.comp_def label, ← List.map_map]
  refine (List.nodup_map_iff_inj_on hkeys).trans ⟨fun hinj => ?_, fun hone => ?_⟩
  · rintro ⟨⟨a, ha, hnone⟩, b, hb, hempty⟩
    cases hinj [none] ((hmem _).mpr ⟨a, ha, by rw [hnone]⟩) [some ""]
      ((hmem _).mpr ⟨b, hb, by rw [hempty]⟩) rfl
  · intro key hkey other hother hsame
    obtain ⟨a, ha, rfl⟩ := (hmem _).mp hkey
    obtain ⟨b, hb, rfl⟩ := (hmem _).mp hother
    simp only [label, label_of_device] at hsame
    rw [eq_of_getD hsame]
    rintro (⟨hnone, hempty⟩ | ⟨hempty, hnone⟩)
    · exact hone ⟨⟨a, ha, hnone⟩, b, hb, hempty⟩
    · exact hone ⟨⟨b, hb, hnone⟩, a, ha, hempty⟩

theorem isLabelled_of_gives {config : Config} {now : Instant} {c : Cohort} {w : Window}
    (h : (compute config now c w).Gives t r) :
    ∃ rules start finish, compiled c = .ok rules ∧ w.resolve? now = some (start, finish) ∧
      r.IsLabelled (Scope.events { site := c.site, window := w, now, predicate := rules.predicate }
        start finish t) := by
  obtain ⟨rules, start, finish, hrules, hwindow, hcounts⟩ := counts_of_gives h
  exact ⟨rules, start, finish, hrules, hwindow, hcounts.nodup_pages, hcounts.nodup_devices⟩

end CohortReport

/-- A goal of a variant of an experiment, of a type that may be missing. -/
structure StoredEvent.IsGoal (event : StoredEvent) (experiment variant goal : String)
    (type : Option String) : Prop where
  isGoal : event.type = goalType
  experiment : event.payload? "experiment_id" = some experiment
  variant : event.payload? "variant_id" = some variant
  goal : event.payload? "goal_id" = some goal
  type : event.payload? "goal_type" = type

namespace ExperimentReport

/-- What a goal type is shown as: one that is empty or missing as that of the configured goal. -/
def goalLabel (e : Experiment) (goal : String) (type : Option String) : String :=
  if type = none ∨ type = some "" then ((e.goal? goal).map fun g => g.type.name).getD ""
  else type.getD ""

/-- The labels of a report on these events. The goals of a variant have different ones unless two
types of one goal are shown alike. -/
structure IsLabelled (r : ExperimentReport) (e : Experiment) (events : List StoredEvent)
    (includeGoals : Bool) : Prop where
  variants : (r.variants.map VariantStats.id).Nodup
  goals : ∀ v ∈ r.variants, (v.goals.map fun g => (g.goalId, g.goalType)).Nodup ↔
    (includeGoals = true → ∀ a ∈ events, ∀ b ∈ events, ∀ goal type type',
      a.IsGoal e.id v.id goal type → b.IsGoal e.id v.id goal type' →
        goalLabel e goal type = goalLabel e goal type' → type = type')

/-- The goal and the goal type in the key of a group, if it is of the variant. -/
def goalKey? (variant : String) : List (Option String) → Option (String × Option String)
  | [some v, some goal, type] => if v = variant then some (goal, type) else none
  | _ => none

section Goals

variable {e : Experiment} {variant goal : String} {type : Option String}

theorem goalKey?_eq_some {key : List (Option String)} :
    goalKey? variant key = some (goal, type) ↔ key = [some variant, some goal, type] := by
  constructor
  · intro h
    unfold goalKey? at h
    split at h
    · split_ifs at h with hvariant
      obtain ⟨rfl, rfl⟩ := Prod.mk.inj (Option.some.inj h)
      rw [hvariant]
    · cases h
  · rintro rfl
    exact if_pos rfl

/-- The rows of a variant's goals are those of the groups of its goals. -/
theorem goals_of_groups (gs : List Query.Group) (rowOf : Query.Group → AggregateRow) :
    ((goalRows (gs.map fun g => (Query.keyJson g.key, rowOf g))).filter (isOfVariant variant)).map
        (fun g => (g.goal, g.type)) =
      ((gs.map Query.Group.key).filterMap (goalKey? variant)).map
        fun k => (.text k.1, Query.cell k.2) := by
  rw [goalRows, List.filterMap_map, List.filter_filterMap, List.map_filterMap, List.filterMap_map,
    List.map_filterMap]
  apply List.filterMap_congr
  intro g _
  dsimp only [Function.comp_apply]
  match hkey : g.key with
  | [] | [some _] | [none] | [_, _] | _ :: _ :: _ :: _ :: _ =>
    simp [Query.keyJson, Query.cell, goalKey?]
  | [v, goal, type] =>
    cases v with
    | none => simp [Query.keyJson, Query.cell, goalKey?, Json.isNull]
    | some v =>
      cases goal with
      | none => simp [Query.keyJson, Query.cell, goalKey?, Json.isNull]
      | some goal =>
        by_cases hv : v = variant <;>
          simp [Query.keyJson, Query.cell, goalKey?, Json.isNull, isOfVariant, hv]

/-- Goals have different labels unless two types of one goal are shown alike. -/
theorem nodup_labels_iff {keys : List (List (Option String))} (h : keys.Nodup) (e : Experiment) :
    ((keys.filterMap (goalKey? variant)).map fun k => (k.1, goalLabel e k.1 k.2)).Nodup ↔
      ∀ goal type type', [some variant, some goal, type] ∈ keys →
        [some variant, some goal, type'] ∈ keys →
          goalLabel e goal type = goalLabel e goal type' → type = type' := by
  have hnodup : (keys.filterMap (goalKey? variant)).Nodup := by
    refine List.Nodup.filterMap (fun key other k hkey hother => ?_) h
    rw [goalKey?_eq_some.mp hkey, goalKey?_eq_some.mp hother]
  have hmem (goal : String) (type : Option String) :
      (goal, type) ∈ keys.filterMap (goalKey? variant) ↔ [some variant, some goal, type] ∈ keys := by
    simp only [List.mem_filterMap, goalKey?_eq_some, exists_eq_right]
  refine (List.nodup_map_iff_inj_on hnodup).trans ⟨fun hinj => ?_, fun hone => ?_⟩
  · intro goal type type' htype htype' hsame
    exact (Prod.mk.inj (hinj _ ((hmem _ _).mpr htype) _ ((hmem _ _).mpr htype')
      (Prod.ext rfl hsame))).2
  · rintro ⟨goal, type⟩ htype ⟨goal', type'⟩ htype' hsame
    obtain ⟨rfl, hsame⟩ := Prod.mk.inj hsame
    rw [hone goal type type' ((hmem _ _).mp htype) ((hmem _ _).mp htype') hsame]

theorem goalTypeOf_cell (e : Experiment) (goal : String) (type : Option String) :
    goalTypeOf (e.goal? goal) (Query.cell type) = .ok (goalLabel e goal type) := by
  rcases type with _ | type
  · rfl
  · by_cases hempty : type = ""
    · subst hempty
      rfl
    · rw [goalTypeOf, goalLabel]
      simp [Query.cell, Json.isNothing, hempty, textOf]

theorem eq_text_of_textOf {v : Json} {s : String} (h : textOf v = .ok s) : v = .text s := by
  unfold textOf at h
  split at h
  · rw [Except.ok.inj h]
  · cases h

/-- The goals of a variant are shown in the order of their groups. -/
theorem labels_of_goalStats {users : ℤ} {rows : List GoalRow} {stats : List GoalStats}
    (h : rows.mapM (goalStats e users) = .ok stats) {keys : List (String × Option String)}
    (hkeys : rows.map (fun g => (g.goal, g.type)) =
      keys.map fun k => (.text k.1, Query.cell k.2)) :
    stats.map (fun g => (g.goalId, g.goalType)) = keys.map fun k => (k.1, goalLabel e k.1 k.2) := by
  have hall := mapM_ok h
  clear h
  induction hall generalizing keys with
  | nil =>
    obtain rfl := List.map_eq_nil_iff.mp hkeys.symm
    rfl
  | cons hstats _ ih =>
    obtain ⟨key, others, rfl, hkey, hothers⟩ := List.map_eq_cons_iff.mp hkeys.symm
    obtain ⟨hid, htype, -⟩ := goalStats_inv hstats
    have hgoal := eq_text_of_textOf hid
    obtain ⟨hkeyGoal, hkeyType⟩ := Prod.mk.inj hkey
    have hid := Json.text.inj (hkeyGoal.trans hgoal)
    rw [← hid, ← hkeyType, goalTypeOf_cell] at htype
    rw [List.map_cons, List.map_cons, ih hothers.symm, ← hid, Except.ok.inj htype]

end Goals

section Labels

variable {config : Config} {curve : NormalCurve} {now start finish : Instant} {e : Experiment}
  {w : Window} {t : EventTable} {r : ExperimentReport} {includeGoals : Bool}

theorem mem_events_goalsShape {scope : Scope} {event : StoredEvent} :
    event ∈ (goalsShape e.id).events scope start finish t ↔
      event ∈ scope.events start finish t ∧ event.type = goalType ∧
        event.payload? "experiment_id" = some e.id := by
  simp [AggregateShape.events, goalsShape, Filter.lets, Filter.typeIs, Filter.payloadIs,
    Filter.ofTest, Clause.test, Clause.holds_single, allHold, EventTest.holds]

theorem mem_keys_goals {scope : Scope} {variant goal : String} {type : Option String} :
    [some variant, some goal, type] ∈
        ((goalsShape e.id).answered scope start finish t).map Query.Group.key ↔
      ∃ event ∈ scope.events start finish t, event.IsGoal e.id variant goal type := by
  rw [AggregateShape.mem_keys rfl (by simp [goalsShape])]
  have hkey (event : StoredEvent) : (goalsShape e.id).grouping.key event =
      [event.payload? "variant_id", event.payload? "goal_id", event.payload? "goal_type"] := rfl
  constructor
  · rintro ⟨event, hevent, heq⟩
    obtain ⟨hmem, hgoal, hexperiment⟩ := mem_events_goalsShape.mp hevent
    simp only [hkey, List.cons.injEq, and_true] at heq
    exact ⟨event, hmem, hgoal, hexperiment, heq.1, heq.2.1, heq.2.2⟩
  · rintro ⟨event, hmem, hgoal⟩
    refine ⟨event, mem_events_goalsShape.mpr ⟨hmem, hgoal.isGoal, hgoal.experiment⟩, ?_⟩
    rw [hkey, hgoal.variant, hgoal.goal, hgoal.type]

/-- What a report has been computed from, on a table. -/
theorem counted_of_gives (h : (compute config curve now e w includeGoals).Gives t r) :
    ∃ start finish counts, w.resolve? now = some (start, finish) ∧ counts.names.Nodup ∧
      ofCounts config curve now e counts (if includeGoals then goalRows (((goalsShape e.id).answered
        { site := e.site, window := w, now } start finish t).map fun g =>
          (Query.keyJson g.key, (goalsShape e.id).rowOf g)) else []) = .ok r := by
  obtain ⟨counts, hcounts, h⟩ := h.bind_inv
  obtain ⟨rows, hrows, hcounted⟩ := Gives.bind_inv hcounts
  obtain rfl := Inquiry.run_pure_ok hcounted
  obtain ⟨-, -, start, finish, hwindow⟩ :=
    AggregateShape.of_gives_aggregate (variantsShape_isSound e.id e.goalEvent).filters hrows
  refine ⟨start, finish, countsByVariant rows, hwindow, Entries.nodup_names_ofList, ?_⟩
  cases includeGoals with
  | true =>
    obtain ⟨goals, hgoals, h⟩ := Gives.bind_inv h
    rw [Gives.unique hgoals (goalBreakdown_gives_rows e.id hwindow t)] at h
    exact run_ofExcept_ok h
  | false =>
    obtain ⟨goals, hgoals, h⟩ := Gives.bind_inv h
    obtain rfl := Inquiry.run_pure_ok hgoals
    exact run_ofExcept_ok h

theorem id_of_ofCounts {counts : Entries AggregateRow} {goals : List GoalRow}
    (h : ofCounts config curve now e counts goals = .ok r) : r.id = e.id := by
  obtain ⟨variants, -, h⟩ := bind_ok h
  obtain ⟨size, -, h⟩ := bind_ok h
  obtain ⟨days, -, h⟩ := bind_ok h
  obtain rfl := Except.ok.inj h
  rfl

theorem isLabelled_of_gives (he : (e.variants.map Variant.id).Nodup)
    (h : (compute config curve now e w includeGoals).Gives t r) :
    ∃ start finish, r.id = e.id ∧ w.resolve? now = some (start, finish) ∧
      r.IsLabelled e (Scope.events { site := e.site, window := w, now } start finish t)
        includeGoals := by
  obtain ⟨start, finish, counts, hwindow, hnames, hr⟩ := counted_of_gives h
  obtain ⟨hvariants, -⟩ := ofCounts_inv hr
  refine ⟨start, finish, id_of_ofCounts hr, hwindow, ?_, fun v hv => ?_⟩
  · rw [ids_of_variantStats hvariants]
    exact nodup_variantOrder he hnames
  obtain ⟨id, -, hread⟩ := mapM_ok_mem hvariants hv
  obtain ⟨rfl, -, -, hgoals⟩ := variantStats_inv hread
  cases includeGoals with
  | false =>
    rw [← Except.ok.inj hgoals]
    simp
  | true =>
    rw [if_pos rfl] at hgoals
    rw [labels_of_goalStats hgoals (goals_of_groups _ _),
      nodup_labels_iff (AggregateShape.nodup_keys _ _ _ _ _)]
    simp only [mem_keys_goals]
    constructor
    · rintro hone - a ha b hb goal type type' hgoal hgoal'
      exact hone goal type type' ⟨a, ha, hgoal⟩ ⟨b, hb, hgoal'⟩
    · rintro hone goal type type' ⟨a, ha, hgoal⟩ ⟨b, hb, hgoal'⟩
      exact hone trivial a ha b hb goal type type' hgoal hgoal'

end Labels

end ExperimentReport

theorem Catalog.experiment_of_find?_make {cohorts : List Cohort} {experiments : List Experiment}
    {id : String} {e : Experiment} (h : (make cohorts experiments).experiments.find? id = some e) :
    e ∈ experiments := by
  induction experiments using List.reverseRecOn with
  | nil =>
    have hcohorts (catalog : Catalog) :
        (cohorts.foldl (fun catalog c => catalog.addCohort c) catalog).experiments =
          catalog.experiments := by
      clear h
      induction cohorts generalizing catalog with
      | nil => rfl
      | cons c rest ih => exact ih _
    rw [make, List.foldl_nil, hcohorts] at h
    cases h
  | append_singleton experiments d ih =>
    rw [make, List.foldl_append] at h
    rcases Entries.of_find?_put h with rfl | h
    · exact List.mem_append_right _ (List.mem_singleton_self e)
    · exact List.mem_append_left _ (ih h)

namespace Serving

section Labels

variable {config : Config} {curve : NormalCurve} {cohorts : List Cohort}
  {experiments : List Experiment} {now : Instant} {limits : CacheLimits Number} {start : Number}
  {σ : Type} {table : EventTable} {store : Store σ} {st : σ} {turns : List Turn}

/-- A report that has not failed is what a subject of some request comes to on the table. -/
theorem gives_of_mem (hstore : store.AnswersFrom table) {x : Exchange}
    (hx : x ∈ exchanges store turns
      { config, curve, catalog := .make cohorts experiments, now }
      { cache := { limits, now := start }, store := st }) {reports : List Report}
    (hreports : x.answer = .ok reports) {report : Report} (hreport : report ∈ reports)
    (hanswered : report.queryFailed = false) :
    ∃ y ∈ exchanges store turns { config, curve, catalog := .make cohorts experiments, now }
        { cache := { limits, now := start }, store := st },
      ∃ subjects a, y.service.subjects y.request = .ok subjects ∧ a ∈ subjects ∧
        (a.inquiry y.service).Gives table report := by
  obtain ⟨before, after, hrun⟩ := List.append_of_mem hx
  obtain ⟨hfollows, -⟩ := follows_of_run hrun
  obtain ⟨ts, hts, hall⟩ := hfollows reports hreports
  obtain ⟨t, ht, hshown⟩ := exists_of_forall₂ hall hreport
  obtain ⟨a, ha⟩ := Service.asks_of_mem_tasks hts ht
  cases hshown with
  | failed st hnone =>
    rw [ha.failed_eq, a.queryFailed_failed] at hanswered
    cases hanswered
  | computed st hcomputed =>
    rw [ha.compute_eq] at hcomputed
    obtain ⟨subjects, hsubjects, hmem, -⟩ := ha
    exact ⟨x, hx, subjects, a, hsubjects, hmem, gives_of_run hstore hcomputed⟩
  | kept hleft hlive =>
    obtain ⟨y, hy, b, u, other, st, hb, hcomputed, heq⟩ := hleft
    obtain ⟨-, rfl⟩ := Prod.mk.inj heq
    rw [hb.compute_eq] at hcomputed
    obtain ⟨subjects, hsubjects, hmem, -⟩ := hb
    have hy' : y ∈ before ++ x :: after := by
      rw [List.append_cons]
      exact List.mem_append_left _ hy
    exact ⟨y, hrun ▸ hy', subjects, b, hsubjects, hmem, gives_of_run hstore hcomputed⟩

/-- The experiments of a service stay those it was made with. -/
theorem experiments_of_mem {x : Exchange} (hx : x ∈ exchanges store turns
      { config, curve, catalog := .make cohorts experiments, now }
      { cache := { limits, now := start }, store := st }) :
    x.service.catalog.IsKeyed ∧
      ∀ id e, x.service.catalog.experiments.find? id = some e → e ∈ experiments := by
  refine service_of_mem_exchanges (q := fun service => service.catalog.IsKeyed ∧
    ∀ id e, service.catalog.experiments.find? id = some e → e ∈ experiments) ?_ ?_ ?_ hx
  · exact ⟨Catalog.isKeyed_make _ _, fun id e he => Catalog.experiment_of_find?_make he⟩
  · exact fun c service _ h => ⟨⟨h.1.cohorts.put c, h.1.experiments⟩, h.2⟩
  · exact fun now service _ h => h

theorem mem_of_subject {x : Exchange} (hx : x ∈ exchanges store turns
      { config, curve, catalog := .make cohorts experiments, now }
      { cache := { limits, now := start }, store := st }) {subjects : List Subject}
    (hsubjects : x.service.subjects x.request = .ok subjects) {e : Experiment} {w : Window}
    {includeGoals : Bool} (he : .experiment e w includeGoals ∈ subjects) : e ∈ experiments := by
  obtain ⟨hkeyed, hfound⟩ := experiments_of_mem hx
  exact hfound _ _ (Service.subjects_knownTo hkeyed hsubjects _ he).1

end Labels

/-- Pages and variants of a report come each under a label of its own. Devices do unless some are
empty and others missing, and goals unless two types of one goal are shown alike. -/
theorem reports_labelled (config : Config) (curve : NormalCurve) (cohorts : List Cohort)
    {experiments : List Experiment} (hexperiments : ∀ e ∈ experiments, e.Accepted) (now : Instant)
    (limits : CacheLimits Number) (start : Number) {σ : Type} {table : EventTable} {store : Store σ}
    (hstore : store.AnswersFrom table) (st : σ) (turns : List Turn) :
    let service : Service := { config, curve, catalog := .make cohorts experiments, now }
    let past := exchanges store turns service { cache := { limits, now := start }, store := st }
    ∀ x ∈ past, ∀ reports, x.answer = .ok reports → ∀ report ∈ reports, report.queryFailed = false →
      (∀ r, report = .cohort r → ∃ y ∈ past, ∃ subjects w rules start finish,
        y.service.subjects y.request = .ok subjects ∧ .metrics r.cohort w ∈ subjects ∧
          CohortReport.compiled r.cohort = .ok rules ∧
          w.resolve? y.service.now = some (start, finish) ∧
          let scope : Scope :=
            { site := r.cohort.site, window := w, now := y.service.now,
              predicate := rules.predicate }
          r.IsLabelled (scope.events start finish table)) ∧
      ∀ r, report = .experiment r → ∃ y ∈ past, ∃ subjects e w includeGoals start finish,
        y.service.subjects y.request = .ok subjects ∧ .experiment e w includeGoals ∈ subjects ∧
          r.id = e.id ∧ w.resolve? y.service.now = some (start, finish) ∧
          r.IsLabelled e (Scope.events { site := e.site, window := w, now := y.service.now } start
            finish table) includeGoals := by
  intro service past x hx reports hreports report hreport hanswered
  obtain ⟨y, hy, subjects, a, hsubjects, ha, hgives⟩ :=
    gives_of_mem hstore hx hreports hreport hanswered
  cases a with
  | metrics c w =>
    obtain ⟨r, hr, hshown⟩ := Gives.bind_inv hgives
    obtain rfl := Inquiry.run_pure_ok hshown
    refine ⟨fun q hq => ?_, fun q hq => (by cases hq)⟩
    obtain rfl := Report.cohort.inj hq
    obtain ⟨rfl, -⟩ := CohortReport.compute_inv hr
    obtain ⟨rules, first, last, hrules, hwindow, hlabels⟩ := CohortReport.isLabelled_of_gives hr
    exact ⟨y, hy, subjects, w, rules, first, last, hsubjects, ha, hrules, hwindow, hlabels⟩
  | comparison site cs w =>
    obtain ⟨r, -, hshown⟩ := Gives.bind_inv hgives
    obtain rfl := Inquiry.run_pure_ok hshown
    exact ⟨fun q hq => (by cases hq), fun q hq => (by cases hq)⟩
  | experiment e w includeGoals =>
    obtain ⟨r, hr, hshown⟩ := Gives.bind_inv hgives
    obtain rfl := Inquiry.run_pure_ok hshown
    refine ⟨fun q hq => (by cases hq), fun q hq => ?_⟩
    obtain rfl := Report.experiment.inj hq
    -- Two variants of one identifier would share a label; an accepted experiment has no such two.
    have haccepted := hexperiments e (mem_of_subject hy hsubjects ha)
    obtain ⟨first, last, hid, hwindow, hlabels⟩ :=
      ExperimentReport.isLabelled_of_gives haccepted.nodup_variants hr
    exact ⟨y, hy, subjects, e, w, includeGoals, first, last, hsubjects, ha, hid, hwindow, hlabels⟩

section Unnamed

/-- One request to a service that has answered none. -/
theorem Cold.exchanges_single {table : EventTable} {s : Serving ℕ} (h : s.Cold [])
    (service : Service) {r : Request} {a : Subject} (ha : service.subjects r = .ok [a])
    (hsite : a.site ≠ "") {report : Report} (hgives : (a.inquiry service).Gives table report)
    (hanswered : report.queryFailed = false) :
    exchanges (Store.failing table fun _ => none) [.request r] service s =
      [⟨service, s.cache.now, r, .ok [report]⟩] := by
  obtain ⟨t, ht⟩ := Subject.task_ok service hsite
  obtain ⟨s', hrespond, -⟩ := h.respond_steady ht ha List.not_mem_nil hgives hanswered
  rw [exchanges_request, hrespond]
  rfl

theorem cold_clickServing : clickServing.Cold [] := ⟨⟨rfl, rfl⟩, fun e he => by cases he⟩

/-- An event that takes part in the experiment as a member of its control group. -/
def controlTable : EventTable :=
  ⟨[{ AggregateShape.clickAt checkoutExperiment.site with
      timestamp := newYear, experimentIds := [some checkoutExperiment.id],
      variantIds := [some "control"] }]⟩

theorem reports_labelled_control :
    let service : Service := { catalog := .make [] [checkoutExperiment], now := newYear }
    let store := Store.failing controlTable fun _ => none
    let request : Request := .experimentResults checkoutExperiment.site checkoutExperiment.id {} true
    (∀ e ∈ [checkoutExperiment], e.Accepted) ∧ store.AnswersFrom controlTable ∧
      ∃ x r, exchanges store [.request request] service clickServing = [x] ∧
        x.answer = .ok [.experiment r] ∧ r.queryFailed = false ∧
        "control" ∈ r.variants.map VariantStats.id ∧ (r.variants.map VariantStats.id).Nodup ∧
        ∀ v ∈ r.variants, (v.goals.map fun g => (g.goalId, g.goalType)).Nodup := by
  intro service store request
  have haccepted : checkoutExperiment.Accepted := by
    rw [Experiment.Accepted]
    decide +kernel
  have hall : ∀ e ∈ [checkoutExperiment], e.Accepted := by simpa using haccepted
  have hstore : store.AnswersFrom controlTable := Store.answersFrom_failing _ _
  obtain ⟨r, hreport, -, hcomplete, -, hpairs⟩ := ExperimentReport.compute_gives
    Config.isSound_default standardNormal_isLawful haccepted.nodup_variants
    (show ExperimentReport.daysSince checkoutExperiment.startedAt newYear = .ok 0 from rfl)
    resolve_openWindow (show controlTable.IsCountable from show 1 < 2 ^ 63 by decide) true
  have hrun := cold_clickServing.exchanges_single service (r := request)
    (a := .experiment checkoutExperiment openWindow true) rfl (by decide)
    (Gives.bind hreport (gives_pure _)) hcomplete.answered
  let x : Exchange := ⟨service, clickServing.cache.now, request, .ok [.experiment r]⟩
  have hx : x ∈ exchanges store [.request request] service clickServing :=
    hrun ▸ List.mem_singleton_self x
  obtain ⟨-, hlabels⟩ := reports_labelled {} standardNormal [] hall newYear clickServing.cache.limits
    clickServing.cache.now hstore 0 [.request request] x hx [.experiment r] rfl (.experiment r)
    (List.mem_singleton_self _) hcomplete.answered
  obtain ⟨_, -, _, _, _, _, _, _, -, -, -, -, hlabelled⟩ := hlabels r rfl
  have hclick : ∀ event ∈ controlTable.rows, event.type ≠ goalType := by
    rw [controlTable, List.forall_mem_singleton]
    decide
  refine ⟨hall, hstore, x, r, hrun, rfl, hcomplete.answered, ?_, hlabelled.variants, fun v hv => ?_⟩
  · exact (hpairs "control").mpr ⟨_, .head _, rfl, by decide, le_rfl, rfl⟩
  · refine (hlabelled.goals v hv).mpr fun _ a ha b hb goal type type' hgoal => ?_
    exact absurd hgoal.isGoal (hclick a (Scope.mem_events.mp ha).1)

def unnamedDevices : EventTable where
  rows := [
    { AggregateShape.clickAt "s" with timestamp := newYear },
    { AggregateShape.clickAt "s" with id := "f", timestamp := newYear, deviceType := some "" }]

/-- An event without a device and one with an empty device are shown in two rows of one label. -/
theorem shows_label_twice :
    ∃ x r, exchanges (Store.failing unnamedDevices fun _ => none)
        [.request (.cohortMetrics "s" "c" {})] cohortService clickServing = [x] ∧
      x.answer = .ok [.cohort r] ∧ r.queryFailed = false ∧
      ¬(r.devices.map DeviceRow.deviceType).Nodup := by
  have hrules : CohortReport.compiled formerCohort = .ok {} := rfl
  obtain ⟨r, hreport, -, hr, hcounts⟩ := CohortReport.compute_gives
    (show Query.isLimit ({} : Config).topPagesLimit = true by decide) hrules resolve_openWindow
    unnamedDevices
  have hrun := cold_clickServing.exchanges_single cohortService
    (r := .cohortMetrics "s" "c" {}) (a := .metrics formerCohort openWindow) rfl (by decide)
    (Gives.bind hreport (gives_pure _)) hr
  refine ⟨_, r, hrun, rfl, hr, ?_⟩
  rw [hcounts.nodup_devices, not_not]
  simp only [Scope.mem_events, unnamedDevices]
  exact ⟨⟨_, ⟨.head _, by decide⟩, rfl⟩, _, ⟨.tail _ (.head _), by decide⟩, rfl⟩

end Unnamed

end Serving

end CohortAnalytics
