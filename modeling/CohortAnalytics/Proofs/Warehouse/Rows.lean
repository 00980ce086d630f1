import CohortAnalytics.Proofs.Results
import CohortAnalytics.Warehouse.Table

/-!
What an event becomes in the table. An event can be stored where its required columns have values and
the others nothing or a value of their kind, and its row holds those values.
-/

namespace CohortAnalytics

namespace LooseEvent

/-- The event as it is queued after the first check. -/
def pending (e : LooseEvent) : Except LoadError PendingEvent := do
  PendingEvent.ofMembers (← LooseEvent.id e) e

/-- The row that the event becomes. -/
def stored (e : LooseEvent) : Except LoadError StoredEvent := do (← pending e).store

/-- Events and their rows, one by one. -/
abbrev Rows (es : List LooseEvent) (rows : List StoredEvent) : Prop :=
  List.Forall₂ (fun e row => stored e = .ok row) es rows

/-- The id under which the event is looked for, if it has one. -/
def key (e : LooseEvent) : Option String := (LooseEvent.id e).toOption.join

/-- The texts that a row cannot do without. -/
def requiredTexts : List String := [LoadError.idColumn, "site_id", "session_id", "event_type"]

def optionalTexts : List String :=
  ["page_path", "referrer", "user_agent", "user_language", "device_type"]

def IsText (s : String) (v : Json) : Prop := v = .text s

def IsWhole (n : ℤ) (v : Json) : Prop := v = .int n ∧ -2147483648 ≤ n ∧ n ≤ 2147483647

def IsReal (x : Float) (v : Json) : Prop := ∃ n, v = .number n ∧ n.toFloat? = some x

def IsTruth (b : Bool) (v : Json) : Prop := v = .bool b

/-- What is in a column: a value of its kind, or nothing. -/
def Holds {α : Type} (kind : α → Json → Prop) (e : LooseEvent) (name : String) : Option α → Prop
  | some a => ∃ v, e.find? name = some v ∧ kind a v
  | none => ∀ v, e.find? name = some v → v = .null

/-- Required columns have values, and the others nothing or a value of their kind. -/
structure IsWellFormed (e : LooseEvent) : Prop where
  required : ∀ name ∈ requiredTexts, ∃ s, e.find? name = some (.text s)
  timestamp : ∃ t, PendingEvent.readTimestamp (e.find? "timestamp") = .ok t
  texts : ∀ name ∈ optionalTexts, ∃ s, e.Holds IsText name s
  width : ∃ n, e.Holds IsWhole "viewport_width" n
  reals : ∀ name ∈ ["scroll_depth", "load_time"], ∃ x, e.Holds IsReal name x
  truth : ∃ b, e.Holds IsTruth "is_dead_click" b
  lists : ∀ name ∈ ["experiment_ids", "variant_ids"],
    ∃ l, PendingEvent.readList (e.find? name) = .ok l

/-- How an event and the row it becomes hang together. -/
structure Becomes (e : LooseEvent) (row : StoredEvent) : Prop where
  id : LooseEvent.id e = .ok (some row.id)
  site : e.find? "site_id" = some (.text row.site)
  session : e.find? "session_id" = some (.text row.session)
  type : e.find? "event_type" = some (.text row.type)
  timestamp : PendingEvent.readTimestamp (e.find? "timestamp") = .ok row.timestamp
  page : e.Holds IsText "page_path" row.pagePath
  referrer : e.Holds IsText "referrer" row.referrer
  agent : e.Holds IsText "user_agent" row.userAgent
  language : e.Holds IsText "user_language" row.userLanguage
  device : e.Holds IsText "device_type" row.deviceType
  width : e.Holds IsWhole "viewport_width" row.viewportWidth
  scroll : e.Holds IsReal "scroll_depth" row.scrollDepth
  load : e.Holds IsReal "load_time" row.loadTime
  truth : e.Holds IsTruth "is_dead_click" row.isDeadClick
  experiments : PendingEvent.readList (e.find? "experiment_ids") = .ok row.experimentIds
  variants : PendingEvent.readList (e.find? "variant_ids") = .ok row.variantIds
  data : PendingEvent.payload ⟨some row.id, row.timestamp, row.experimentIds, row.variantIds, e⟩ =
    row.data

end LooseEvent

namespace PendingEvent

open LooseEvent

variable {p : PendingEvent} {name : String}

theorem textColumn_iff {s : Option String} :
    p.textColumn name = .ok s ↔ Holds IsText p.columns name s := by
  rw [textColumn]
  cases h : p.columns.find? name with
  | none => cases s <;> simp [Holds, h]
  | some v => cases v <;> cases s <;> simp [Holds, IsText, h]

theorem requiredColumn_iff {s : String} :
    p.requiredColumn name = .ok s ↔ p.columns.find? name = some (.text s) := by
  rw [requiredColumn, textColumn]
  cases p.columns.find? name with
  | none => simp [bind, Except.bind]
  | some v => cases v <;> simp [bind, Except.bind, pure, Except.pure]

theorem realColumn_iff {x : Option Float} :
    p.realColumn name = .ok x ↔ Holds IsReal p.columns name x := by
  rw [realColumn]
  cases h : p.columns.find? name with
  | none => cases x <;> simp [Holds, h]
  | some v =>
    cases v with
    | number n => cases hx : n.toFloat? <;> cases x <;> simp [Holds, IsReal, h, hx]
    | _ => cases x <;> simp [Holds, IsReal, h]

theorem wholeColumn_iff {n : Option ℤ} :
    p.wholeColumn name = .ok n ↔ Holds IsWhole p.columns name n := by
  rw [wholeColumn]
  cases h : p.columns.find? name with
  | none => cases n <;> simp [Holds, h]
  | some v =>
    cases v with
    | number m =>
      cases m with
      | int m =>
        by_cases hm : -2147483648 ≤ m ∧ m ≤ 2147483647
        · cases n <;> simp [Holds, IsWhole, h, hm]
          grind
        · cases n <;> simp [Holds, IsWhole, h, hm]
          grind
      | float x => cases n <;> simp [Holds, IsWhole, h]
    | _ => cases n <;> simp [Holds, IsWhole, h]

theorem truthColumn_iff {b : Option Bool} :
    p.truthColumn name = .ok b ↔ Holds IsTruth p.columns name b := by
  rw [truthColumn]
  cases h : p.columns.find? name with
  | none => cases b <;> simp [Holds, h]
  | some v => cases v <;> cases b <;> simp [Holds, IsTruth, h]

end PendingEvent

namespace LooseEvent

variable {e : LooseEvent} {row : StoredEvent}

theorem becomes_of_stored (h : e.stored = .ok row) : e.Becomes row := by
  obtain ⟨p, hp, h⟩ := bind_ok h
  obtain ⟨id, hid, hp⟩ := bind_ok hp
  obtain ⟨t, ht, hp⟩ := bind_ok hp
  obtain ⟨experiments, hexperiments, hp⟩ := bind_ok hp
  obtain ⟨variants, hvariants, hp⟩ := bind_ok hp
  obtain rfl := Except.ok.inj hp
  rw [PendingEvent.store] at h
  obtain ⟨id, rfl⟩ : ∃ id', id = some id' := by
    cases id with
    | none => cases h
    | some id => exact ⟨id, rfl⟩
  obtain ⟨id', hid', h⟩ := bind_ok h
  obtain rfl := Except.ok.inj hid'
  obtain ⟨site, hsite, h⟩ := bind_ok h
  obtain ⟨session, hsession, h⟩ := bind_ok h
  obtain ⟨type, htype, h⟩ := bind_ok h
  obtain ⟨page, hpage, h⟩ := bind_ok h
  obtain ⟨referrer, hreferrer, h⟩ := bind_ok h
  obtain ⟨agent, hagent, h⟩ := bind_ok h
  obtain ⟨language, hlanguage, h⟩ := bind_ok h
  obtain ⟨device, hdevice, h⟩ := bind_ok h
  obtain ⟨width, hwidth, h⟩ := bind_ok h
  obtain ⟨scroll, hscroll, h⟩ := bind_ok h
  obtain ⟨load, hload, h⟩ := bind_ok h
  obtain ⟨deadClick, hdeadClick, h⟩ := bind_ok h
  obtain rfl := Except.ok.inj h
  exact
    { id := hid
      site := PendingEvent.requiredColumn_iff.mp hsite
      session := PendingEvent.requiredColumn_iff.mp hsession
      type := PendingEvent.requiredColumn_iff.mp htype
      timestamp := ht
      page := PendingEvent.textColumn_iff.mp hpage
      referrer := PendingEvent.textColumn_iff.mp hreferrer
      agent := PendingEvent.textColumn_iff.mp hagent
      language := PendingEvent.textColumn_iff.mp hlanguage
      device := PendingEvent.textColumn_iff.mp hdevice
      width := PendingEvent.wholeColumn_iff.mp hwidth
      scroll := PendingEvent.realColumn_iff.mp hscroll
      load := PendingEvent.realColumn_iff.mp hload
      truth := PendingEvent.truthColumn_iff.mp hdeadClick
      experiments := hexperiments
      variants := hvariants
      data := rfl }

theorem Becomes.stored (h : e.Becomes row) : e.stored = .ok row := by
  let p : PendingEvent := ⟨some row.id, row.timestamp, row.experimentIds, row.variantIds, e⟩
  have hpending : e.pending = .ok p := by
    rw [pending, h.id]
    simp only [PendingEvent.ofMembers, h.timestamp, h.experiments, h.variants, bind, Except.bind,
      pure, Except.pure, p]
  rw [LooseEvent.stored, hpending]
  change p.store = .ok row
  rw [PendingEvent.store, PendingEvent.requiredColumn_iff.mpr h.site,
    PendingEvent.requiredColumn_iff.mpr h.session, PendingEvent.requiredColumn_iff.mpr h.type,
    PendingEvent.textColumn_iff.mpr h.page, PendingEvent.textColumn_iff.mpr h.referrer,
    PendingEvent.textColumn_iff.mpr h.agent, PendingEvent.textColumn_iff.mpr h.language,
    PendingEvent.textColumn_iff.mpr h.device, PendingEvent.wholeColumn_iff.mpr h.width,
    PendingEvent.realColumn_iff.mpr h.scroll, PendingEvent.realColumn_iff.mpr h.load,
    PendingEvent.truthColumn_iff.mpr h.truth]
  simp only [bind, Except.bind, pure, Except.pure, h.data, p]

theorem Becomes.isWellFormed (h : e.Becomes row) {s : String}
    (hid : e.find? LoadError.idColumn = some (.text s)) : e.IsWellFormed where
  required := by simp [requiredTexts, hid, h.site, h.session, h.type]
  timestamp := ⟨_, h.timestamp⟩
  texts := by
    simp only [optionalTexts, List.forall_mem_cons, List.not_mem_nil, false_imp_iff, implies_true,
      and_true]
    exact ⟨⟨_, h.page⟩, ⟨_, h.referrer⟩, ⟨_, h.agent⟩, ⟨_, h.language⟩, ⟨_, h.device⟩⟩
  width := ⟨_, h.width⟩
  reals := by
    simp only [List.forall_mem_cons, List.not_mem_nil, false_imp_iff, implies_true, and_true]
    exact ⟨⟨_, h.scroll⟩, ⟨_, h.load⟩⟩
  truth := ⟨_, h.truth⟩
  lists := by
    simp only [List.forall_mem_cons, List.not_mem_nil, false_imp_iff, implies_true, and_true]
    exact ⟨⟨_, h.experiments⟩, ⟨_, h.variants⟩⟩

theorem IsWellFormed.stored (h : e.IsWellFormed) : ∃ row, e.stored = .ok row := by
  have hrequired := h.required
  have htexts := h.texts
  have hreals := h.reals
  have hlists := h.lists
  simp only [requiredTexts, optionalTexts, List.forall_mem_cons, List.not_mem_nil, false_imp_iff,
    implies_true, and_true] at hrequired htexts hreals hlists
  obtain ⟨⟨id, hid⟩, ⟨site, hsite⟩, ⟨session, hsession⟩, ⟨type, htype⟩⟩ := hrequired
  obtain ⟨⟨page, hpage⟩, ⟨referrer, hreferrer⟩, ⟨agent, hagent⟩, ⟨language, hlanguage⟩,
    ⟨device, hdevice⟩⟩ := htexts
  obtain ⟨⟨scroll, hscroll⟩, ⟨load, hload⟩⟩ := hreals
  obtain ⟨⟨experiments, hexperiments⟩, ⟨variants, hvariants⟩⟩ := hlists
  obtain ⟨t, ht⟩ := h.timestamp
  obtain ⟨width, hwidth⟩ := h.width
  obtain ⟨deadClick, hdeadClick⟩ := h.truth
  have hkey : LooseEvent.id e = .ok (some id) := by
    rw [LooseEvent.id, hid]
    rfl
  let row : StoredEvent := ⟨id, site, session, type, t, page, referrer, agent, language, device,
    width, scroll, load, deadClick, experiments, variants,
    PendingEvent.payload ⟨some id, t, experiments, variants, e⟩⟩
  have hrow : e.Becomes row := ⟨hkey, hsite, hsession, htype, ht, hpage, hreferrer, hagent,
    hlanguage, hdevice, hwidth, hscroll, hload, hdeadClick, hexperiments, hvariants, rfl⟩
  exact ⟨row, hrow.stored⟩

/-- Of events with a text for an id, the well-formed ones are those that can be stored. -/
theorem isWellFormed_iff : e.IsWellFormed ↔
    (∃ s, e.find? LoadError.idColumn = some (.text s)) ∧ ∃ row, e.stored = .ok row := by
  constructor
  · exact fun h => ⟨h.required _ (by simp [requiredTexts]), h.stored⟩
  · rintro ⟨⟨s, hid⟩, row, hrow⟩
    exact (becomes_of_stored hrow).isWellFormed hid

/-- A page view that has its required columns only. -/
def viewed (id page : String) : LooseEvent :=
  [(LoadError.idColumn, .text id), ("site_id", .text "shop"), ("session_id", .text "v"),
    ("event_type", .text "page_view"), ("timestamp", .text "2026-02-28T12:00:00Z"),
    ("page_path", .text page)]

theorem viewed_isWellFormed (id page : String) : (viewed id page).IsWellFormed where
  required := by simp [requiredTexts, viewed, Entries.find?, LoadError.idColumn]
  timestamp := ⟨_, rfl⟩
  texts := by
    simp [optionalTexts, Option.exists, Holds, IsText, viewed, Entries.find?, LoadError.idColumn]
  width := ⟨none, by simp [Holds, viewed, Entries.find?, LoadError.idColumn]⟩
  reals := by simp [Option.exists, Holds, viewed, Entries.find?, LoadError.idColumn]
  truth := ⟨none, by simp [Holds, viewed, Entries.find?, LoadError.idColumn]⟩
  lists := by simp [viewed, Entries.find?, LoadError.idColumn, PendingEvent.readList]

theorem key_of_id {id : Option String} (h : LooseEvent.id e = .ok id) :
    key e = id := by
  rw [key, h]
  rfl

/-- The event as it is but for one column, in which it has nothing. -/
structure IsWithout (name : String) (e whole : LooseEvent) : Prop where
  missing : ∀ v, e.find? name = some v → v = .null
  others : ∀ other ≠ name, e.find? other = whole.find? other

variable {whole : LooseEvent} {name : String}

/-- Without its id the event has none, and otherwise its own. -/
theorem IsWithout.key_eq (h : e.IsWithout name whole) : key e = none ∨ key e = key whole := by
  by_cases hname : name = LoadError.idColumn
  · left
    subst hname
    rw [key, LooseEvent.id]
    split
    · rfl
    · rfl
    · rename_i v hnotNull hv
      exact absurd (h.missing v hv) hnotNull
  · right
    rw [key, key, LooseEvent.id, LooseEvent.id, h.others _ (Ne.symm hname)]

end LooseEvent

end CohortAnalytics
