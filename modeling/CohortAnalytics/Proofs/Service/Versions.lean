import CohortAnalytics.Proofs.Service.Edits

/-!
Which version of its cohorts an answer is about: the one that the exchange found that computed it,
under the same ids and with the same hashes of the rules as the request finds now.
-/

namespace CohortAnalytics

theorem Inquiry.run_map_ok {α β σ : Type} {store : Store σ} {i : Inquiry α} {st : σ} {f : α → β}
    {a : α} (h : (i.run store st).outcome = .finished (.ok a)) :
    ((i >>= fun a => pure (f a)).run store st).outcome = .finished (.ok (f a)) := by
  rw [run_bind]
  generalize i.run store st = run at h
  obtain ⟨outcome, asked, after⟩ := run
  obtain rfl : outcome = .finished (.ok a) := h
  rfl

/-- The cohorts of a subject are those that the request names, as the catalogue holds them. -/
def Subject.IsFound (s : Service) (r : Request) : Subject → Prop
  | .metrics c w => ∃ site id bounds, r = .cohortMetrics site id bounds ∧
      s.catalog.scopedCohort site id = .ok c ∧ s.windowOf bounds = .ok w
  | .comparison site cs w => ∃ ids bounds, r = .compareCohorts site ids bounds ∧
      (Service.sortedIds ids).mapM (s.catalog.scopedCohort site) = .ok cs ∧
      s.windowOf bounds = .ok w
  | .experiment _ _ includeGoals =>
      (∃ site id bounds, r = .experimentResults site id bounds includeGoals) ∨
        ∃ site ids bounds, r = .experimentsResults site ids bounds includeGoals

theorem Catalog.mem_of_find?_make {cohorts : List Cohort} {experiments : List Experiment}
    {id : String} {c : Cohort} (h : (make cohorts experiments).cohorts.find? id = some c) :
    c ∈ cohorts := by
  have hexperiments (catalog : Catalog) :
      (experiments.foldl (fun catalog e => catalog.addExperiment e) catalog).cohorts =
        catalog.cohorts := by
    clear h
    induction experiments generalizing catalog with
    | nil => rfl
    | cons e rest ih => exact ih _
  rw [make, hexperiments] at h
  clear hexperiments
  induction cohorts using List.reverseRecOn with
  | nil => cases h
  | append_singleton cohorts d ih =>
    rw [List.foldl_append] at h
    rcases Entries.of_find?_put h with rfl | h
    · exact List.mem_append_right _ (List.mem_singleton_self c)
    · exact List.mem_append_left _ (ih h)

theorem Catalog.scopedCohort_addCohort (catalog : Catalog) (c : Cohort) (hsite : c.site ≠ "")
    (hid : c.id ≠ "") : (catalog.addCohort c).scopedCohort c.site c.id = .ok c := by
  rw [scopedCohort, if_neg (by simp [hsite, hid]), addCohort, Entries.find?_put_self]
  simp

namespace Service

/-- A service with these settings, whose catalogue holds none but these cohorts, each under its own
id. -/
structure IsOf (config : Config) (pool : List Cohort) (s : Service) : Prop where
  config : s.config = config
  keyed : s.catalog.IsKeyed
  cohorts : ∀ id c, s.catalog.cohorts.find? id = some c → c ∈ pool

theorem IsOf.addCohort {config : Config} {pool : List Cohort} {s : Service} (h : s.IsOf config pool)
    {c : Cohort} (hc : c ∈ pool) :
    IsOf config pool { s with catalog := s.catalog.addCohort c } := by
  refine ⟨h.config, ⟨h.keyed.cohorts.put c, h.keyed.experiments⟩, fun id d hd => ?_⟩
  rcases Entries.of_find?_put hd with rfl | hd
  · exact hc
  · exact h.cohorts id d hd

theorem IsOf.mem_pool {config : Config} {pool : List Cohort} {s : Service} (h : s.IsOf config pool)
    {site id : String} {c : Cohort} (hc : s.catalog.scopedCohort site id = .ok c) : c ∈ pool :=
  h.cohorts id c (Catalog.scopedCohort_ok hc).2.1

variable {s s' : Service} {r r' : Request} {x y : Subject} {t u : ReportTask}

theorem subjects_isFound {xs : List Subject} (h : s.subjects r = .ok xs) :
    ∀ x ∈ xs, x.IsFound s r := by
  cases subjects_inv h with
  | metrics hc hw =>
    rw [List.forall_mem_singleton]
    exact ⟨_, _, _, rfl, hc, hw⟩
  | comparison hcs hw =>
    rw [List.forall_mem_singleton]
    exact ⟨_, _, rfl, hcs, hw⟩
  | experiment he hw =>
    rw [List.forall_mem_singleton]
    exact .inl ⟨_, _, _, rfl⟩
  | experiments hes hw =>
    rw [List.forall_mem_map]
    exact fun _ _ => .inr ⟨_, _, _, rfl⟩

theorem metrics_tasks {site id : String} {c : Cohort} (hc : s.catalog.scopedCohort site id = .ok c)
    {bounds : TimeBounds} {w : Window} (hw : s.windowOf bounds = .ok w) :
    ∃ t, s.tasks (.cohortMetrics site id bounds) = .ok [t] := by
  obtain ⟨hsite, -, rfl⟩ := Catalog.scopedCohort_ok hc
  obtain ⟨t, ht⟩ := Subject.task_ok s (x := .metrics c w) hsite
  have hsubjects : s.subjects (.cohortMetrics c.site id bounds) = .ok [.metrics c w] := by
    rw [subjects, hc, hw]
    rfl
  exact ⟨t, (tasks_of_subjects hsubjects ht).1⟩

theorem Asks.isFound (h : s.Asks r x t) : x.IsFound s r := by
  obtain ⟨xs, hxs, hmem, -⟩ := h
  exact subjects_isFound hxs x hmem

theorem Asks.ttl_eq (h : s.Asks r x t) : t.ttl = x.ttl s.config := by
  obtain ⟨xs, -, -, ht⟩ := h
  obtain ⟨key, -, rfl⟩ := Subject.task_inv ht
  rfl

theorem Asks.alike (hconfig : s.config = s'.config) (hs : s.catalog.IsKeyed)
    (hs' : s'.catalog.IsKeyed) (hx : s.Asks r x t) (hy : s'.Asks r' y u) (hkey : t.key = u.key) :
    x.Alike y := by
  obtain ⟨xs, hxs, hmem, ht⟩ := hx
  obtain ⟨ys, hys, hmem', hu⟩ := hy
  exact Subject.alike_of_key hconfig (subjects_knownTo hs hxs x hmem)
    (subjects_knownTo hs' hys y hmem') ht hu hkey

end Service

namespace Serving

variable {σ : Type} {store : Store σ} {past : List Exchange} {x y : Exchange}

namespace Exchange

/-- What `y` has left in the cache for a time has not expired at `x`, unless it is `x` itself. -/
def IsRecentTo (ttl : Float) (y x : Exchange) : Prop :=
  y = x ∨ Clock.le (Clock.later y.clock (.float ttl)) x.clock = false

/-- A request of one task: it shows that the store has failed, or what an exchange has come to for a
subject of the same key. -/
theorem Follows.single (h : x.Follows store past) (hx : x ∈ past) {config : Config}
    {pool : List Cohort} (hpast : ∀ y ∈ past, y.service.IsOf config pool)
    (hsingle : x.request.isSingle = true)
    {reports : List Report} (hreports : x.answer = .ok reports) :
    ∃ (a : Subject) (report : Report), a.IsFound x.service x.request ∧ reports = [report] ∧
      ((report = a.failed ∧ ∃ st, ∀ other,
          ((a.inquiry x.service).run store st).outcome ≠ .finished (.ok other)) ∨
        ∃ y ∈ past, ∃ (b : Subject) (st : σ), y.IsRecentTo (b.ttl config) x ∧
        b.IsFound y.service y.request ∧ a.Alike b ∧
        ((b.inquiry y.service).run store st).outcome = .finished (.ok report)) := by
  obtain ⟨ts, hts, hall⟩ := h reports hreports
  obtain ⟨a, t, rfl, ha⟩ := Service.tasks_of_isSingle hsingle hts
  obtain ⟨report, rest, hshown, hrest, rfl⟩ := List.forall₂_cons_left_iff.mp hall
  obtain rfl := List.forall₂_nil_left_iff.mp hrest
  refine ⟨a, report, ha.isFound, rfl, ?_⟩
  have hnow := hpast x hx
  cases hshown with
  | failed st hnone =>
    rw [ha.compute_eq] at hnone
    exact .inl ⟨ha.failed_eq, st, hnone⟩
  | computed st hrun =>
    rw [ha.compute_eq] at hrun
    exact .inr ⟨x, hx, a, st, .inl rfl, ha.isFound, ha.alike rfl hnow.keyed hnow.keyed ha rfl, hrun⟩
  | kept hleft hlive =>
    obtain ⟨y, hy, b, u, report, st, hb, hrun, heq⟩ := hleft
    obtain ⟨hkey, rfl⟩ := Prod.mk.inj heq
    have hthen := hpast y hy
    have halike := ha.alike (hnow.config.trans hthen.config.symm) hnow.keyed hthen.keyed hb hkey
    rw [hb.compute_eq] at hrun
    refine .inr ⟨y, hy, b, st, .inr ?_, hb.isFound, halike, hrun⟩
    rw [← hthen.config, ← hb.ttl_eq]
    exact hlive

/-- The report on a cohort says that the store has failed it, or it is what an exchange has come to
for the cohort that it found for the site and the id. -/
theorem Follows.metrics (h : x.Follows store past) (hx : x ∈ past) {config : Config}
    {pool : List Cohort} (hpast : ∀ y ∈ past, y.service.IsOf config pool) {site id : String} {bounds : TimeBounds}
    (hr : x.request = .cohortMetrics site id bounds) {reports : List Report}
    (hreports : x.answer = .ok reports) :
    ∃ (c : Cohort) (w : Window) (report : CohortReport),
      x.service.catalog.scopedCohort site id = .ok c ∧ x.service.windowOf bounds = .ok w ∧
      reports = [.cohort report] ∧
      ((report = .failed c ∧ ∃ st, ∀ other,
          ((CohortReport.compute config x.service.now c w).run store st).outcome ≠
            .finished (.ok other)) ∨
        ∃ y ∈ past, ∃ (d : Cohort) (st : σ), y.IsRecentTo config.cohortTtl x ∧
        y.service.catalog.scopedCohort site id = .ok d ∧ c.rulesHash = d.rulesHash ∧
        ((CohortReport.compute config y.service.now d w).run store st).outcome =
          .finished (.ok report)) := by
  obtain ⟨a, shown, ha, rfl, hshown⟩ := h.single hx hpast (by rw [hr]; rfl) hreports
  rw [hr] at ha
  cases a with
  | comparison site cs w =>
    obtain ⟨ids, bounds, hother, -⟩ := ha
    cases hother
  | experiment e w includeGoals =>
    rcases ha with ⟨_, _, _, hother⟩ | ⟨_, _, _, hother⟩
    · cases hother
    · cases hother
  | metrics c w =>
    obtain ⟨_, _, _, hsame, hc, hw⟩ := ha
    obtain ⟨rfl, rfl, rfl⟩ := Request.cohortMetrics.inj hsame
    rcases hshown with ⟨rfl, st, hnone⟩ | ⟨y, hy, b, st, hrecent, hb, halike, hrun⟩
    · refine ⟨c, w, .failed c, hc, hw, rfl, .inl ⟨rfl, st, fun other hother => ?_⟩⟩
      rw [← (hpast x hx).config] at hother
      exact hnone (.cohort other) (Inquiry.run_map_ok hother)
    · cases b with
      | comparison site cs w => exact halike.elim
      | experiment e w includeGoals => exact halike.elim
      | metrics d v =>
        obtain ⟨site', id', _, -, hd, -⟩ := hb
        obtain ⟨hid, hsite, hhash, rfl⟩ := halike
        obtain ⟨report, hreport, hrun⟩ := Inquiry.run_bind_ok hrun
        obtain rfl : .cohort report = shown := Inquiry.run_pure_ok hrun
        obtain ⟨-, hfind, rfl⟩ := Catalog.scopedCohort_ok hc
        obtain ⟨-, hfind', rfl⟩ := Catalog.scopedCohort_ok hd
        obtain rfl := (hpast x hx).keyed.cohorts _ _ hfind
        obtain rfl := (hpast y hy).keyed.cohorts _ _ hfind'
        rw [(hpast y hy).config] at hreport
        exact ⟨c, w, report, hc, hw, rfl,
          .inr ⟨y, hy, d, st, hrecent, by rw [hid, hsite]; exact hd, hhash, hreport⟩⟩

/-- The rows of a comparison are what an exchange has come to for the cohorts that it found for the
site and the ids, unless the store has failed. -/
theorem Follows.comparison (h : x.Follows store past) (hx : x ∈ past) {config : Config}
    {pool : List Cohort} (hpast : ∀ y ∈ past, y.service.IsOf config pool) {site : String}
    {ids : List String} {bounds : TimeBounds}
    (hr : x.request = .compareCohorts site ids bounds) {reports : List Report}
    (hreports : x.answer = .ok reports) :
    ∃ (cs : List Cohort) (w : Window) (report : CohortComparison),
      (Service.sortedIds ids).mapM (x.service.catalog.scopedCohort site) = .ok cs ∧
      x.service.windowOf bounds = .ok w ∧ reports = [.comparison report] ∧
      (report = { queryFailed := true } ∨ ∃ y ∈ past, ∃ (ds : List Cohort) (st : σ),
        y.IsRecentTo config.cohortTtl x ∧
        (Service.sortedIds ids).mapM (y.service.catalog.scopedCohort site) = .ok ds ∧
        List.Forall₂ (fun c d => c.id = d.id ∧ c.rulesHash = d.rulesHash) cs ds ∧
        ((CohortComparison.compute y.service.now site ds w).run store st).outcome =
          .finished (.ok report)) := by
  obtain ⟨a, shown, ha, rfl, hshown⟩ := h.single hx hpast (by rw [hr]; rfl) hreports
  rw [hr] at ha
  cases a with
  | metrics c w =>
    obtain ⟨_, _, _, hother, -⟩ := ha
    cases hother
  | experiment e w includeGoals =>
    rcases ha with ⟨_, _, _, hother⟩ | ⟨_, _, _, hother⟩
    · cases hother
    · cases hother
  | comparison home cs w =>
    obtain ⟨_, _, hsame, hcs, hw⟩ := ha
    obtain ⟨rfl, rfl, rfl⟩ := Request.compareCohorts.inj hsame
    rcases hshown with ⟨rfl, -⟩ | ⟨y, hy, b, st, hrecent, hb, halike, hrun⟩
    · exact ⟨cs, w, { queryFailed := true }, hcs, hw, rfl, .inl rfl⟩
    · cases b with
      | metrics c w => exact halike.elim
      | experiment e w includeGoals => exact halike.elim
      | comparison home' ds v =>
        obtain ⟨ids', _, -, hds, -⟩ := hb
        obtain ⟨rfl, hparts, rfl⟩ := halike
        obtain ⟨report, hreport, hrun⟩ := Inquiry.run_bind_ok hrun
        obtain rfl : .comparison report = shown := Inquiry.run_pure_ok hrun
        have hids : Service.sortedIds ids' = Service.sortedIds ids := by
          rw [← (Service.scopedCohorts_ok (hpast x hx).keyed hcs).1,
            ← (Service.scopedCohorts_ok (hpast y hy).keyed hds).1, Subject.ids_eq_of_parts hparts]
        exact ⟨cs, w, report, hcs, hw, rfl,
          .inr ⟨y, hy, ds, st, hrecent, hids ▸ hds, hparts, hreport⟩⟩

end Exchange

def Turn.edited? : Turn → Option Cohort
  | .edit c => some c
  | _ => none

section Run

variable {config : Config} {curve : NormalCurve} {cohorts : List Cohort}
  {experiments : List Experiment} {now : Instant} {limits : CacheLimits Number} {start : Number}
  {st : σ} {turns : List Turn}

theorem isOf_of_mem_exchanges {s : Serving σ} (hy : y ∈ exchanges store turns
    { config, curve, catalog := .make cohorts experiments, now } s) :
    y.service.IsOf config (cohorts ++ turns.filterMap Turn.edited?) := by
  refine service_of_mem_exchanges ?_ ?_ ?_ hy
  · refine ⟨rfl, Catalog.isKeyed_make _ _, fun id c hc => ?_⟩
    exact List.mem_append_left _ (Catalog.mem_of_find?_make hc)
  · intro c service hc h
    exact h.addCohort (List.mem_append_right _ (List.mem_filterMap.mpr ⟨_, hc, rfl⟩))
  · rintro now service - ⟨hconfig, hkeyed, hcohorts⟩
    exact ⟨hconfig, hkeyed, hcohorts⟩

/-- A run of a service that starts with an empty cache. -/
theorem follows_of_run {before after : List Exchange} (hrun : exchanges store turns
    { config, curve, catalog := .make cohorts experiments, now }
    { cache := { limits, now := start }, store := st } = before ++ x :: after) :
    x.Follows store (before ++ [x]) ∧ ∀ y ∈ before ++ [x],
      y.service.IsOf config (cohorts ++ turns.filterMap Turn.edited?) := by
  constructor
  · have hstart : ({ cache := { limits, now := start }, store := st } : Serving σ).Keeps
        (fun e => ∃ y ∈ ([] : List Exchange), y.Leaves store e) start := ⟨⟨rfl, rfl⟩, rfl, by simp⟩
    exact follows_exchanges hstart hrun
  · intro y hy
    have hmem : y ∈ before ++ x :: after := by
      rw [List.append_cons]
      exact List.mem_append_left _ hy
    exact isOf_of_mem_exchanges (hrun ▸ hmem)

end Run

end Serving

end CohortAnalytics
