import CohortAnalytics.Proofs.Cache.Key
import CohortAnalytics.Proofs.Service.Subjects
import CohortAnalytics.Proofs.Time.Written

/-!
The subject of a task can be read off its key.
-/

namespace CohortAnalytics

namespace Subject

theorem names_hashes (cs : List Cohort) :
    Entries.names (cs.map fun c => (c.id, Json.text c.rulesHash)) = cs.map Cohort.id := by
  rw [Entries.names, List.map_map]
  rfl

def keyParams (config : Config) (x : Subject) : List (String × Json) :=
  x.params config ++ x.window.keyParts.map fun (n, v) => (n, .text v)

theorem cacheKey?_of_keyOf {site kind key : String} {params : List (String × Json)} {w : Window}
    (h : Service.keyOf site kind params w = .ok key) :
    cacheKey? site kind (params ++ w.keyParts.map fun (n, v) => (n, .text v)) = some key := by
  unfold Service.keyOf at h
  cases hkey : cacheKey? site kind (params ++ w.keyParts.map fun (n, v) => (n, .text v)) with
  | none =>
    rw [hkey] at h
    cases h
  | some other =>
    rw [hkey] at h
    rw [← Except.ok.inj h]

theorem cacheKey?_of_task {s : Service} {x : Subject} {t : ReportTask} (h : x.task s = .ok t) :
    cacheKey? x.site x.kind (x.keyParams s.config) = some t.key := by
  obtain ⟨key, hkey, rfl⟩ := task_inv h
  exact cacheKey?_of_keyOf hkey

theorem isParams (config : Config) {s : Service} {site : String} {x : Subject} (h : x.KnownTo s site) :
    CacheKey.IsParams (x.keyParams config) := by
  have hwindow (w : Window) : ∀ p ∈ w.keyParts.map fun (n, v) => (n, Json.text v),
      p.2.WellFormed := by simp [Window.keyParts, Json.WellFormed.text]
  have hmake (names : List String) (hnames : Entries.names (x.keyParams config) = names)
      (hnodup : names.Nodup) (hplain : ∀ n ∈ names, '=' ∉ n.toList)
      (hvalues : ∀ p ∈ x.params config, p.2.WellFormed) :
      CacheKey.IsParams (x.keyParams config) := by
    refine ⟨hnames ▸ hnodup, ?_, ?_⟩
    · intro p hp
      exact hplain p.1 (hnames ▸ List.mem_map_of_mem hp)
    · intro p hp
      rcases List.mem_append.mp hp with hp | hp
      · exact hvalues p hp
      · exact hwindow _ p hp
  cases x with
  | metrics c w =>
    apply hmake ["cohort_id", "rules", "top_pages", "start", "end", "window_days"] rfl (by decide)
      (by decide)
    simp [params, Json.WellFormed.text, Json.int, Json.WellFormed.number]
  | comparison site' cs w =>
    obtain ⟨-, hids, -⟩ := h
    have hnames : (Entries.names (cs.map fun c => (c.id, Json.text c.rulesHash))).Nodup := by
      rw [names_hashes]
      exact hids.imp fun hlt => ne_of_lt hlt
    apply hmake ["cohorts", "start", "end", "window_days"] rfl (by decide) (by decide)
    rw [params, hashes, Entries.ofList_eq_self hnames, List.forall_mem_singleton]
    apply Json.WellFormed.object hnames
    simp [Json.WellFormed.text]
  | experiment e w includeGoals =>
    apply hmake ["experiment_id", "version", "goals", "start", "end", "window_days"] rfl (by decide)
      (by decide)
    simp [params, Json.WellFormed.text, Json.int, Json.WellFormed.number, Json.WellFormed.bool]

theorem present_keyParams (config : Config) (x : Subject) :
    CacheKey.present (x.keyParams config) = x.keyParams config := by
  cases x <;> rfl

theorem find?_keyParams_start (config : Config) (x : Subject) :
    Entries.find? "start" (x.keyParams config) = some (.text (Window.sideText x.window.start)) := by
  cases x <;> simp [keyParams, params, window, Window.keyParts, Entries.find?]

theorem find?_keyParams_end (config : Config) (x : Subject) :
    Entries.find? "end" (x.keyParams config) = some (.text (Window.sideText x.window.finish)) := by
  cases x <;> simp [keyParams, params, window, Window.keyParts, Entries.find?]

theorem sorted_hashes {cs : List Cohort} (h : (cs.map Cohort.id).Pairwise (· < ·)) :
    (hashes cs).sorted = .object (cs.map fun c => (c.id, .text c.rulesHash)) := by
  rw [hashes, Entries.ofList_eq_self (names_hashes cs ▸ h.imp fun hlt => ne_of_lt hlt), Json.sorted,
    Json.sortedMembers_eq_map, List.map_map]
  simp only [Function.comp_def, Json.sorted]
  rw [Json.sortMembers_of_names]
  rw [names_hashes]
  exact h.imp fun hlt => le_of_lt hlt

/-- Cohorts in order of their ids: a key holds these ids and the hashes of the rules. -/
theorem parts_of_hashes {cs ds : List Cohort} (hcs : (cs.map Cohort.id).Pairwise (· < ·))
    (hds : (ds.map Cohort.id).Pairwise (· < ·)) (h : (hashes cs).sorted = (hashes ds).sorted) :
    List.Forall₂ (fun c d => c.id = d.id ∧ c.rulesHash = d.rulesHash) cs ds := by
  rw [sorted_hashes hcs, sorted_hashes hds, Json.object.injEq] at h
  replace h := List.forall₂_map_right_iff.mp (List.forall₂_map_left_iff.mp (List.forall₂_eq_eq_eq ▸ h))
  exact h.imp fun c d heq => by simpa using heq

theorem ids_eq_of_parts {cs ds : List Cohort}
    (h : List.Forall₂ (fun c d => c.id = d.id ∧ c.rulesHash = d.rulesHash) cs ds) :
    cs.map Cohort.id = ds.map Cohort.id := by
  have hids := h.imp fun _ _ hparts => hparts.1
  exact List.forall₂_eq_eq_eq ▸ List.forall₂_map_left_iff.mpr (List.forall₂_map_right_iff.mpr hids)

theorem eq_of_ids {catalog : Catalog} {cs ds : List Cohort}
    (hcs : ∀ c ∈ cs, catalog.cohorts.find? c.id = some c)
    (hds : ∀ d ∈ ds, catalog.cohorts.find? d.id = some d)
    (h : cs.map Cohort.id = ds.map Cohort.id) : cs = ds := by
  have hfound {es : List Cohort} (hes : ∀ e ∈ es, catalog.cohorts.find? e.id = some e) :
      (es.map Cohort.id).map catalog.cohorts.find? = es.map some := by
    rw [List.map_map]
    exact List.map_congr_left hes
  apply List.map_injective_iff.mpr (Option.some_injective Cohort)
  rw [← hfound hcs, h, hfound hds]

/-- Subjects that share a key: their parts go by the same ids, with the same hashes of their rules
or the same version. -/
def Alike : Subject → Subject → Prop
  | .metrics c w, .metrics d v => c.id = d.id ∧ c.site = d.site ∧ c.rulesHash = d.rulesHash ∧ w = v
  | .comparison site cs w, .comparison site' ds v => site = site' ∧
      List.Forall₂ (fun c d => c.id = d.id ∧ c.rulesHash = d.rulesHash) cs ds ∧ w = v
  | .experiment e w includeGoals, .experiment f v includeGoals' => e.id = f.id ∧ e.site = f.site ∧
      e.version = f.version ∧ w = v ∧ includeGoals = includeGoals'
  | _, _ => False

/-- Whatever has become of the catalogue in between, a key tells its subject up to what the
definitions say besides. -/
theorem alike_of_key {s s' : Service} (hconfig : s.config = s'.config) {site site' : String}
    {x y : Subject} {t u : ReportTask} (hx : x.KnownTo s site) (hy : y.KnownTo s' site')
    (ht : x.task s = .ok t) (hu : y.task s' = .ok u) (hkey : t.key = u.key) : x.Alike y := by
  have htext := cacheKey?_of_task ht
  rw [hkey, ← cacheKey?_of_task hu] at htext
  obtain ⟨hsite, hkind, hparams⟩ := CacheKey.key_inj
    (CacheKey.site_ne_empty (cacheKey?_of_task ht)) (CacheKey.site_ne_empty (cacheKey?_of_task hu))
    (isParams s.config hx) (isParams s'.config hy) htext
  have hfind := CacheKey.find?_present (isParams s.config hx) (isParams s'.config hy) hparams
  simp only [present_keyParams] at hfind
  have hwindow : x.window = y.window := by
    have hstart := hfind "start"
    have hend := hfind "end"
    simp only [find?_keyParams_start, find?_keyParams_end, Option.map_some, Json.sorted,
      Option.some.injEq, Json.text.injEq] at hstart hend
    exact Window.eq_of_sides hstart hend (by rw [days_of_knownTo hx, days_of_knownTo hy, hconfig])
  cases x with
  | metrics c w =>
    cases y with
    | metrics d v =>
      have hid := hfind "cohort_id"
      have hrules := hfind "rules"
      simp [keyParams, params, Entries.find?, Json.sorted] at hid hrules
      exact ⟨hid, hsite, hrules, hwindow⟩
    | comparison _ ds v => simp [kind] at hkind
    | experiment e v _ => simp [kind] at hkind
  | comparison home cs w =>
    cases y with
    | metrics d v => simp [kind] at hkind
    | comparison away ds v =>
      exact ⟨hsite, parts_of_hashes hx.2.1 hy.2.1 (Option.some.inj (hfind "cohorts")), hwindow⟩
    | experiment e v _ => simp [kind] at hkind
  | experiment e w includeGoals =>
    cases y with
    | metrics d v => simp [kind] at hkind
    | comparison _ ds v => simp [kind] at hkind
    | experiment f v includeGoals' =>
      have hid := hfind "experiment_id"
      have hversion := hfind "version"
      have hgoals := hfind "goals"
      simp [keyParams, params, Entries.find?, Json.sorted] at hid hversion hgoals
      exact ⟨hid, hsite, hversion, hwindow, hgoals⟩

theorem hashes_eq_of_parts {cs ds : List Cohort}
    (h : List.Forall₂ (fun c d => c.id = d.id ∧ c.rulesHash = d.rulesHash) cs ds) :
    hashes cs = hashes ds := by
  have hmaps : cs.map (fun c => (c.id, Json.text c.rulesHash)) =
      ds.map fun d => (d.id, Json.text d.rulesHash) := by
    rw [← List.forall₂_eq_eq_eq, List.forall₂_map_left_iff, List.forall₂_map_right_iff]
    exact h.imp fun c d hparts => by rw [hparts.1, hparts.2]
  rw [hashes, hmaps, hashes]

theorem key_of_alike {s s' : Service} (hconfig : s.config = s'.config) {x y : Subject}
    {t u : ReportTask} (ht : x.task s = .ok t) (hu : y.task s' = .ok u) (h : x.Alike y) :
    t.key = u.key := by
  have hsame : cacheKey? x.site x.kind (x.keyParams s.config) =
      cacheKey? y.site y.kind (y.keyParams s'.config) := by
    rw [hconfig]
    cases x with
    | metrics c w =>
      cases y with
      | metrics d v =>
        obtain ⟨hid, hsite, hhash, rfl⟩ := h
        simp only [site, kind, keyParams, params, window, hid, hsite, hhash]
      | comparison site' ds v => exact h.elim
      | experiment e v includeGoals => exact h.elim
    | comparison home cs w =>
      cases y with
      | metrics d v => exact h.elim
      | comparison away ds v =>
        obtain ⟨rfl, hparts, rfl⟩ := h
        simp only [site, kind, keyParams, params, window, hashes_eq_of_parts hparts]
      | experiment e v includeGoals => exact h.elim
    | experiment e w includeGoals =>
      cases y with
      | metrics d v => exact h.elim
      | comparison site' ds v => exact h.elim
      | experiment f v includeGoals' =>
        obtain ⟨hid, hsite, hversion, rfl, rfl⟩ := h
        simp only [site, kind, keyParams, params, window, hid, hsite, hversion]
  rw [cacheKey?_of_task ht, cacheKey?_of_task hu] at hsame
  exact Option.some.inj hsame

/-- Subjects of tasks under one key are the same: the catalogue has one definition under each id. -/
theorem eq_of_key {s : Service} {site site' : String} {x y : Subject} {t u : ReportTask}
    (hx : x.KnownTo s site) (hy : y.KnownTo s site') (ht : x.task s = .ok t) (hu : y.task s = .ok u)
    (hkey : t.key = u.key) : x = y := by
  have halike := alike_of_key rfl hx hy ht hu hkey
  cases x with
  | metrics c w =>
    cases y with
    | metrics d v =>
      obtain ⟨hid, -, -, rfl⟩ := halike
      have hfound := hx.1
      rw [hid, hy.1, Option.some.injEq] at hfound
      rw [hfound]
    | comparison _ ds v => exact halike.elim
    | experiment e v _ => exact halike.elim
  | comparison site cs w =>
    cases y with
    | metrics d v => exact halike.elim
    | comparison site' ds v =>
      obtain ⟨rfl, hparts, rfl⟩ := halike
      rw [eq_of_ids hx.1 hy.1 (ids_eq_of_parts hparts)]
    | experiment e v _ => exact halike.elim
  | experiment e w includeGoals =>
    cases y with
    | metrics d v => exact halike.elim
    | comparison _ ds v => exact halike.elim
    | experiment f v includeGoals' =>
      obtain ⟨hid, -, -, rfl, rfl⟩ := halike
      have hfound := hx.1
      rw [hid, hy.1, Option.some.injEq] at hfound
      rw [hfound]

end Subject

end CohortAnalytics
