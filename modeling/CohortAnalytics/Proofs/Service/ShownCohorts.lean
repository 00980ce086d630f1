import CohortAnalytics.Proofs.Service.RuleEdits

/-!
The cohorts that answers show. Keys hold the ids of cohorts and the hashes of their rules, not their
names: until a report expires, a cohort that has been renamed goes by its former name.
-/

namespace CohortAnalytics

open Inquiry

namespace Cohort

theorem eq_of_parts {c d : Cohort} (hid : c.id = d.id) (hsite : c.site = d.site)
    (hrules : c.rules = d.rules) : d = { c with name := d.name } := by
  cases c
  cases d
  simp_all

theorem HashesTell.rules_map_eq {pool cs ds : List Cohort} (h : HashesTell pool)
    (hcs : ∀ c ∈ cs, c ∈ pool) (hds : ∀ d ∈ ds, d ∈ pool)
    (hparts : List.Forall₂ (fun c d => c.id = d.id ∧ c.rulesHash = d.rulesHash) cs ds) :
    cs.map rules = ds.map rules := by
  induction hparts with
  | nil => rfl
  | cons hpart _ ih =>
    rw [List.forall_mem_cons] at hcs hds
    rw [List.map_cons, List.map_cons, h.rules_eq hcs.1 hds.1 hpart.2, ih hcs.2 hds.2]

end Cohort

namespace CohortComparison

variable {σ : Type} {store : Store σ} {st : σ} {now : Instant} {site : String} {w : Window}

/-- What tells which cohort a row is about. -/
def caption (r : ComparisonRow) : String × String := (r.cohortId, r.cohortName)

theorem rowOf_inv {c : Cohort} {row : AggregateRow} {r : ComparisonRow} (h : rowOf c row = .ok r) :
    caption r = (c.id, c.name) := by
  obtain ⟨sessions, -, h⟩ := bind_ok h
  obtain ⟨events, -, h⟩ := bind_ok h
  obtain ⟨clicks, -, h⟩ := bind_ok h
  dsimp only at h
  split_ifs at h
  all_goals
    obtain ⟨perSession, -, h⟩ := bind_ok h
    obtain rfl := Except.ok.inj h
    rfl

theorem computeRows_inv {cs : List Cohort} {rows : List ComparisonRow}
    (h : ((computeRows now site w cs).run store st).outcome = .finished (.ok rows)) :
    rows.map caption = cs.map fun c => (c.id, c.name) := by
  induction cs generalizing st rows with
  | nil =>
    obtain rfl := Inquiry.run_pure_ok h
    rfl
  | cons c rest ih =>
    obtain ⟨row, hrow, h⟩ := run_bind_ok h
    obtain ⟨others, hothers, h⟩ := run_bind_ok h
    obtain rfl := Inquiry.run_pure_ok h
    obtain ⟨rules, -, hrow⟩ := run_bind_ok hrow
    obtain ⟨totals, -, hrow⟩ := run_bind_ok hrow
    rw [List.map_cons, List.map_cons, rowOf_inv (run_ofExcept_ok hrow), ih hothers]

theorem captions_of_compute {cs : List Cohort} {r : CohortComparison}
    (h : ((compute now site cs w).run store st).outcome = .finished (.ok r)) :
    r.rows.map caption = cs.map fun c => (c.id, c.name) := by
  obtain ⟨rows, hrows, h⟩ := run_bind_ok h
  obtain rfl := Inquiry.run_pure_ok h
  exact computeRows_inv hrows

end CohortComparison

namespace Serving

section Repetition

variable {σ : Type} {store : Store σ} {s : Serving σ} {service service' : Service}
  {r r' : Request} {t t' : ReportTask} {report : Report}

/-- The first report that a cache keeps. -/
theorem serve_first (hidle : s.cache.IsIdle) (hempty : s.cache.entries = [])
    (hrun : (t.compute.run store s.store).outcome = .finished (.ok report)) :
    (s.serve store t).1 = report ∧ (s.serve store t).2.cache.IsIdle ∧
      (s.serve store t).2.cache.now = s.cache.now ∧
      (s.serve store t).2.cache.entries = [(t.key, entryOf s.cache.now t report)] := by
  have hmiss : s.cache.entries.look s.cache.now t.key = (none, []) := by
    rw [hempty]
    rfl
  have hcompute : inquire store t.compute (s.store, s.asked) = (.finished (.ok report),
      (t.compute.run store s.store).state, s.asked ++ (t.compute.run store s.store).asked) := by
    rw [inquire, hrun]
  obtain ⟨hanswer, -, hserved, hentries⟩ :=
    Cache.call_computed hidle hmiss (some (.float t.ttl)) hcompute
  refine ⟨?_, hserved, Cache.call_now _ _ _ _ _, hentries.trans ?_⟩
  · rw [serve, hanswer]
    rfl
  · have hroom : ¬s.cache.limits.capacity < 1 := by
      have hpos := s.cache.limits.capacity_pos
      omega
    simp [Cache.keeping, CacheTable.store, Entries.put, hroom, entryOf]

/-- What a task has come to is shown again to the next one under its key. -/
theorem respond_again (hidle : s.cache.IsIdle) (hempty : s.cache.entries = [])
    (ht : service.tasks r = .ok [t]) (ht' : service'.tasks r' = .ok [t']) (hkey : t'.key = t.key)
    (hrun : (t.compute.run store s.store).outcome = .finished (.ok report))
    (hlive : (entryOf s.cache.now t report).isExpired s.cache.now = false) :
    (s.respond service store r).1 = .ok [report] ∧
      ((s.respond service store r).2.respond service' store r').1 = .ok [report] := by
  obtain ⟨hshown, hserved, hnow, hentries⟩ := serve_first hidle hempty hrun
  rw [respond_single ht, respond_single ht', hshown]
  refine ⟨rfl, ?_⟩
  generalize (s.serve store t).2 = next at hserved hnow hentries
  have hfound : next.cache.entries.look next.cache.now t'.key =
      (some (entryOf s.cache.now t report), next.cache.entries) := by
    rw [hentries, hnow, hkey, CacheTable.look, Entries.find?, if_pos rfl]
    simp [hlive]
  obtain ⟨hanswer, -⟩ := Cache.call_found hserved hfound (some (.float t'.ttl))
    (inquire store t'.compute) (next.store, next.asked)
  rw [serve, hanswer]
  rfl

/-- An edit that leaves the key as it was does not show in the next answer. -/
theorem edit_unseen (hidle : s.cache.IsIdle) (hempty : s.cache.entries = []) {c : Cohort}
    {a b : Subject} (ha : service.subjects r = .ok [a])
    (hb : { service with catalog := service.catalog.addCohort c }.subjects r = .ok [b])
    (halike : b.Alike a) (hsite : a.site ≠ "") (hsite' : b.site ≠ "")
    (hrun : ((a.inquiry service).run store s.store).outcome = .finished (.ok report))
    (hlive : Clock.le (Clock.later s.cache.now (.float (a.ttl service.config))) s.cache.now = false) :
    ∃ x y, exchanges store [.request r, .edit c, .request r] service s = [x, y] ∧
      y.service = { service with catalog := service.catalog.addCohort c } ∧ y.request = r ∧
      y.answer = .ok [report] := by
  obtain ⟨t, ht⟩ := Subject.task_ok service hsite
  obtain ⟨t', ht'⟩ :=
    Subject.task_ok { service with catalog := service.catalog.addCohort c } hsite'
  obtain ⟨htasks, hasks⟩ := Service.tasks_of_subjects ha ht
  obtain ⟨htasks', -⟩ := Service.tasks_of_subjects hb ht'
  obtain ⟨-, hsecond⟩ := respond_again hidle hempty htasks htasks'
    (Subject.key_of_alike rfl ht' ht halike) (hasks.compute_eq ▸ hrun)
    (by rw [entryOf, hasks.ttl_eq]; exact hlive)
  exact ⟨_, _, rfl, rfl, rfl, hsecond⟩

end Repetition

section Shown

variable {σ : Type} {store : Store σ} {past : List Exchange} {x : Exchange} {config : Config}
  {pool : List Cohort} {site : String} {bounds : TimeBounds} {reports : List Report}

/-- The cohort of a report is one that was found for the site and the id, with the current rules. -/
theorem Exchange.Follows.cohort_shown (h : x.Follows store past) (hx : x ∈ past)
    (hpast : ∀ y ∈ past, y.service.IsOf config pool) (hhashes : Cohort.HashesTell pool) {id : String}
    (hr : x.request = .cohortMetrics site id bounds) (hreports : x.answer = .ok reports) :
    ∃ c report, x.service.catalog.scopedCohort site id = .ok c ∧ reports = [.cohort report] ∧
      report.cohort = { c with name := report.cohort.name } ∧
      (report.queryFailed = true → report.cohort = c) ∧
      ∃ y ∈ past, y.IsRecentTo config.cohortTtl x ∧
        y.service.catalog.scopedCohort site id = .ok report.cohort := by
  obtain ⟨c, w, report, hc, -, hone, hreport⟩ := h.metrics hx hpast hr hreports
  refine ⟨c, report, hc, hone, ?_⟩
  rcases hreport with ⟨rfl, -⟩ | ⟨y, hy, d, st, hrecent, hd, hhash, hcomputed⟩
  · exact ⟨rfl, fun _ => rfl, x, hx, .inl rfl, hc⟩
  · obtain ⟨hshown, hanswered⟩ := CohortReport.compute_inv hcomputed
    obtain ⟨-, hfind, hsite⟩ := Catalog.scopedCohort_ok hc
    obtain ⟨-, hfind', hsite'⟩ := Catalog.scopedCohort_ok hd
    have hid := (hpast x hx).keyed.cohorts _ _ hfind
    have hid' := (hpast y hy).keyed.cohorts _ _ hfind'
    have hrules := hhashes.rules_eq ((hpast x hx).mem_pool hc) ((hpast y hy).mem_pool hd) hhash
    rw [hshown]
    refine ⟨Cohort.eq_of_parts (hid.trans hid'.symm) (hsite.trans hsite'.symm) hrules,
      fun hfailed => ?_, y, hy, hrecent, hd⟩
    rw [hanswered] at hfailed
    cases hfailed

/-- The rows of a comparison name the cohorts that were found for the site and the ids at one time,
with the current rules. -/
theorem Exchange.Follows.rows_shown (h : x.Follows store past) (hx : x ∈ past)
    (hpast : ∀ y ∈ past, y.service.IsOf config pool) (hhashes : Cohort.HashesTell pool)
    {ids : List String} (hr : x.request = .compareCohorts site ids bounds)
    (hreports : x.answer = .ok reports) :
    ∃ cs report, (Service.sortedIds ids).mapM (x.service.catalog.scopedCohort site) = .ok cs ∧
      reports = [.comparison report] ∧ (report.queryFailed = false →
        report.rows.map ComparisonRow.cohortId = cs.map Cohort.id ∧
        ∃ y ∈ past, y.IsRecentTo config.cohortTtl x ∧ ∃ ds,
          (Service.sortedIds ids).mapM (y.service.catalog.scopedCohort site) = .ok ds ∧
          ds.map Cohort.rules = cs.map Cohort.rules ∧
          report.rows.map ComparisonRow.cohortName = ds.map Cohort.name) := by
  obtain ⟨cs, w, report, hcs, -, hone, hreport⟩ := h.comparison hx hpast hr hreports
  refine ⟨cs, report, hcs, hone, fun hanswered => ?_⟩
  rcases hreport with rfl | ⟨y, hy, ds, st, hrecent, hds, hparts, hcomputed⟩
  · cases hanswered
  · have hcaptions := CohortComparison.captions_of_compute hcomputed
    have hpool {z : Exchange} (hz : z ∈ past) {es : List Cohort}
        (hes : (Service.sortedIds ids).mapM (z.service.catalog.scopedCohort site) = .ok es) :
        ∀ e ∈ es, e ∈ pool := by
      intro e he
      obtain ⟨id, -, hid⟩ := mapM_ok_mem hes he
      exact (hpast z hz).mem_pool hid
    refine ⟨?_, y, hy, hrecent, ds, hds, ?_, ?_⟩
    · rw [Subject.ids_eq_of_parts hparts]
      have hids := congrArg (List.map Prod.fst) hcaptions
      rwa [List.map_map, List.map_map] at hids
    · exact (hhashes.rules_map_eq (hpool hx hcs) (hpool hy hds) hparts).symm
    · have hnames := congrArg (List.map Prod.snd) hcaptions
      rwa [List.map_map, List.map_map] at hnames

end Shown

/-- A report shows the current id, site and rules, and the name that the cohort had when the report
was computed, at this request or at one whose report has not expired. The rows of a comparison show
the current ids and the names of one such moment. -/
theorem shows_recent_cohorts (config : Config) (curve : NormalCurve) (cohorts : List Cohort)
    (experiments : List Experiment) (now : Instant) (limits : CacheLimits Number) (start : Number)
    {σ : Type} (store : Store σ) (st : σ) (turns : List Turn)
    (hhashes : Cohort.HashesTell (cohorts ++ turns.filterMap Turn.edited?))
    (before after : List Exchange) (x : Exchange)
    (hrun : exchanges store turns { config, curve, catalog := .make cohorts experiments, now }
      { cache := { limits, now := start }, store := st } = before ++ x :: after) :
    (∀ site id bounds reports, x.request = .cohortMetrics site id bounds → x.answer = .ok reports →
      ∃ c report, x.service.catalog.scopedCohort site id = .ok c ∧ reports = [.cohort report] ∧
        report.cohort = { c with name := report.cohort.name } ∧
        (report.queryFailed = true → report.cohort = c) ∧
        ∃ y ∈ before ++ [x], y.IsRecentTo config.cohortTtl x ∧
          y.service.catalog.scopedCohort site id = .ok report.cohort) ∧
      ∀ site ids bounds reports, x.request = .compareCohorts site ids bounds →
        x.answer = .ok reports → ∃ cs report,
          (Service.sortedIds ids).mapM (x.service.catalog.scopedCohort site) = .ok cs ∧
          reports = [.comparison report] ∧ (report.queryFailed = false →
            report.rows.map ComparisonRow.cohortId = cs.map Cohort.id ∧
            ∃ y ∈ before ++ [x], y.IsRecentTo config.cohortTtl x ∧ ∃ ds,
              (Service.sortedIds ids).mapM (y.service.catalog.scopedCohort site) = .ok ds ∧
              ds.map Cohort.rules = cs.map Cohort.rules ∧
              report.rows.map ComparisonRow.cohortName = ds.map Cohort.name) := by
  obtain ⟨hfollows, hpast⟩ := follows_of_run hrun
  have hx : x ∈ before ++ [x] := by simp
  constructor
  · intro site id bounds reports hr hreports
    exact hfollows.cohort_shown hx hpast hhashes hr hreports
  · intro site ids bounds reports hr hreports
    exact hfollows.rows_shown hx hpast hhashes hr hreports

section Renamed

def formerCohort : Cohort := ⟨"c", "s", "Old", []⟩

def renamedCohort : Cohort := { formerCohort with name := "New" }

def cohortService : Service :=
  { catalog := .make [formerCohort] [], now := newYear }

/-- An empty cache over a table without events. -/
def emptyServing : Serving EventTable :=
  { cache := { limits := ⟨200, .int 30, by decide⟩, now := .int 0 }, store := {} }

/-- The same is asked before and after the cohort is renamed. -/
def renamingExchanges (r : Request) : List Exchange :=
  exchanges Store.table [.request r, .edit renamedCohort, .request r] cohortService emptyServing

theorem rename_unseen {r : Request} {a b : Subject} {report : Report}
    (ha : cohortService.subjects r = .ok [a])
    (hb : { cohortService with catalog := cohortService.catalog.addCohort renamedCohort }.subjects r =
      .ok [b]) (halike : b.Alike a) (hsite : a.site = "s") (hsite' : b.site = "s")
    (httl : a.ttl cohortService.config = 60.0)
    (hreport : (a.inquiry cohortService).Gives {} report) :
    ∃ x y, renamingExchanges r = [x, y] ∧ y.service.catalog.scopedCohort "s" "c" = .ok renamedCohort ∧
      y.request = r ∧ y.answer = .ok [report] := by
  have hfirst : ((a.inquiry cohortService).run Store.table {}).outcome = .finished (.ok report) :=
    hreport
  obtain ⟨x, y, hrun, hservice, hrequest, hanswer⟩ := edit_unseen (s := emptyServing) ⟨rfl, rfl⟩
    rfl ha hb halike (by rw [hsite]; decide) (by rw [hsite']; decide) hfirst
    (by rw [httl]; decide +kernel)
  exact ⟨x, y, hrun, by rw [hservice]; rfl, hrequest, hanswer⟩

theorem metrics_rename_unseen : ∃ x y report,
    renamingExchanges (.cohortMetrics "s" "c" {}) = [x, y] ∧
      y.service.catalog.scopedCohort "s" "c" = .ok renamedCohort ∧
      y.request = .cohortMetrics "s" "c" {} ∧ y.answer = .ok [.cohort report] ∧
      report.queryFailed = false ∧ report.cohort = formerCohort := by
  have hlimit : Query.isLimit ({} : Config).topPagesLimit = true := by decide
  have hrules : CohortReport.compiled formerCohort = .ok {} := rfl
  obtain ⟨report, hreport, hcohort, hanswered, -⟩ :=
    CohortReport.compute_gives hlimit hrules resolve_openWindow {}
  obtain ⟨x, y, hrun, hheld, hrequest, hanswer⟩ := rename_unseen (r := .cohortMetrics "s" "c" {})
    (a := .metrics formerCohort openWindow) (b := .metrics renamedCohort openWindow) rfl rfl
    ⟨rfl, rfl, rfl, rfl⟩ rfl rfl rfl (Gives.bind hreport (gives_pure _))
  exact ⟨x, y, report, hrun, hheld, hrequest, hanswer, hanswered, hcohort⟩

theorem comparison_rename_unseen : ∃ x y report,
    renamingExchanges (.compareCohorts "s" ["c"] {}) = [x, y] ∧
      y.service.catalog.scopedCohort "s" "c" = .ok renamedCohort ∧
      y.answer = .ok [.comparison report] ∧ report.queryFailed = false ∧
      report.rows.map ComparisonRow.cohortName = ["Old"] := by
  have hids : Service.sortedIds ["c"] = ["c"] := by simp [Service.sortedIds, List.eraseDups_cons]
  have hrules : ∀ c ∈ [formerCohort], ∃ rules, CohortReport.compiled c = .ok rules := fun c hc =>
    ⟨{}, by rw [List.mem_singleton.mp hc]; rfl⟩
  have hcountable : ({} : EventTable).IsCountable := show 0 < 2 ^ 63 by decide
  obtain ⟨rows, hrows, -, -⟩ := @CohortComparison.computeRows_gives _ "s" _ _ _ resolve_openWindow _
    hcountable _ hrules
  have hreport : (CohortComparison.compute cohortService.now "s" [formerCohort] openWindow).Gives {}
      { rows } := hrows.bind (gives_pure _)
  obtain ⟨x, y, hrun, hheld, -, hanswer⟩ := rename_unseen (r := .compareCohorts "s" ["c"] {})
    (a := .comparison "s" [formerCohort] openWindow)
    (b := .comparison "s" [renamedCohort] openWindow) (by rw [Service.subjects, hids]; rfl)
    (by rw [Service.subjects, hids]; rfl) ⟨rfl, .cons ⟨rfl, rfl⟩ .nil, rfl⟩ rfl rfl rfl
    (hreport.bind (gives_pure _))
  have hcaptions := congrArg (List.map Prod.snd) (CohortComparison.captions_of_compute hreport)
  rw [List.map_map, List.map_map] at hcaptions
  exact ⟨x, y, { rows }, hrun, hheld, hanswer, rfl, hcaptions⟩

/-- After it has been renamed, the cohort still goes by its former name. -/
theorem shows_recent_cohorts_renamed :
    Cohort.HashesTell ([formerCohort] ++
        [.request (.cohortMetrics "s" "c" {}), .edit renamedCohort,
          .request (.cohortMetrics "s" "c" {})].filterMap Turn.edited?) ∧
      ∃ x y report, renamingExchanges (.cohortMetrics "s" "c" {}) = [x] ++ y :: [] ∧
        y.answer = .ok [.cohort report] ∧
        report.cohort = { renamedCohort with name := report.cohort.name } ∧
        ∃ z ∈ [x] ++ [y], z.IsRecentTo 60.0 y ∧
          z.service.catalog.scopedCohort "s" "c" = .ok report.cohort := by
  have hhashes : Cohort.HashesTell ([formerCohort] ++
      [.request (.cohortMetrics "s" "c" {}), .edit renamedCohort,
        .request (.cohortMetrics "s" "c" {})].filterMap Turn.edited?) := by
    intro c hc d hd _
    rw [Cohort.canonical_rulesJson_inj]
    have hrules : ∀ e ∈ [formerCohort, renamedCohort], e.rules = [] := by decide
    rw [hrules c hc, hrules d hd]
  refine ⟨hhashes, ?_⟩
  obtain ⟨x, y, report, hrun, hheld, hrequest, hanswer, -⟩ := metrics_rename_unseen
  obtain ⟨hmetrics, -⟩ := shows_recent_cohorts {} standardNormal [formerCohort] []
    cohortService.now ⟨200, .int 30, by decide⟩ (.int 0) Store.table {} _ hhashes [x] [] y hrun
  obtain ⟨c, shown, hc, hone, hparts, -, hrecent⟩ := hmetrics "s" "c" {} _ hrequest hanswer
  obtain rfl : renamedCohort = c := Except.ok.inj (hheld.symm.trans hc)
  obtain rfl : report = shown := by simpa using hone
  exact ⟨x, y, report, hrun, hanswer, hparts, hrecent⟩

/-- Neither the report of a cohort nor a comparison shows the name that the catalogue holds. -/
theorem shows_former_name :
    (∃ x y report, renamingExchanges (.cohortMetrics "s" "c" {}) = [x, y] ∧
        y.service.catalog.scopedCohort "s" "c" = .ok renamedCohort ∧
        y.answer = .ok [.cohort report] ∧ report.queryFailed = false ∧
        report.cohort ≠ renamedCohort) ∧
      ∃ x y report, renamingExchanges (.compareCohorts "s" ["c"] {}) = [x, y] ∧
        y.service.catalog.scopedCohort "s" "c" = .ok renamedCohort ∧
        y.answer = .ok [.comparison report] ∧ report.queryFailed = false ∧
        report.rows.map ComparisonRow.cohortName ≠ [renamedCohort.name] := by
  obtain ⟨x, y, report, hrun, hheld, -, hanswer, hanswered, hcohort⟩ := metrics_rename_unseen
  obtain ⟨x', y', report', hrun', hheld', hanswer', hanswered', hnames⟩ := comparison_rename_unseen
  exact ⟨⟨x, y, report, hrun, hheld, hanswer, hanswered, by rw [hcohort]; decide⟩,
    x', y', report', hrun', hheld', hanswer', hanswered', by rw [hnames]; decide⟩

end Renamed

end Serving

end CohortAnalytics
