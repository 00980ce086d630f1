import CohortAnalytics.Event.Basic
import CohortAnalytics.Proofs.Time.ReadBack
import CohortAnalytics.Proofs.Warehouse.Loading

/-!
Checked events on their way into the table. Written out, an event becomes a row with all its values;
its moment is the one that its text names.
-/

namespace CohortAnalytics

/-- What is written of a moment of the calendar is read as one. -/
theorem PendingEvent.readTimestamp_zuluText {s : Stamp}
    (hoffset : ∀ o ∈ s.offset, o.natAbs < microsPerDay) (hcalendar : ¬s.LeavesCalendar) :
    ∃ t, readTimestamp (some (.text s.zuluText)) = .ok t := by
  rw [readTimestamp, s.spellOffset_zuluText, Iso.read_isoText hoffset]
  dsimp only
  cases h : s.asRead.universal? with
  | none =>
    have hleaves := s.asRead.universal?_eq_none_iff.mp h
    exact absurd hleaves (Stamp.not_leavesCalendar_asRead hcalendar)
  | some t => exact ⟨t, rfl⟩

namespace Event

open LooseEvent

/-- The row of an event at a moment of universal time. -/
def row (e : Event) (t : Instant) : StoredEvent where
  id := e.id
  site := e.site
  session := e.session
  type := e.type.name
  timestamp := t
  pagePath := some e.pagePath
  referrer := some e.referrer
  userAgent := some e.userAgent
  userLanguage := some e.userLanguage
  deviceType := some e.deviceType.name
  viewportWidth := some e.viewportWidth
  scrollDepth := some e.scrollDepth
  loadTime := some e.loadTime
  isDeadClick := some e.isDeadClick
  experimentIds := e.experimentIds.map some
  variantIds := e.variantIds.map some
  data := .object e.data

/-- What the table asks of a checked event: a width of 32 bits, and a moment of the calendar with an
offset below a day. -/
structure Fits (e : Event) : Prop where
  width : -2147483648 ≤ e.viewportWidth ∧ e.viewportWidth ≤ 2147483647
  offset : ∀ o ∈ e.timestamp.offset, o.natAbs < microsPerDay
  calendar : ¬e.timestamp.LeavesCalendar

theorem readList_texts (ts : List String) :
    PendingEvent.readList (some (texts ts)) = .ok (ts.map some) := by
  cases ts with
  | nil => rfl
  | cons t ts =>
    simp only [PendingEvent.readList, texts, List.map_cons, Json.isNothing, List.isEmpty_cons,
      Bool.false_eq_true, if_false, List.map_map]
    rfl

theorem becomes_members {e : Event} {t : Instant}
    (hwidth : -2147483648 ≤ e.viewportWidth ∧ e.viewportWidth ≤ 2147483647)
    (ht : PendingEvent.readTimestamp (some (.text e.timestamp.zuluText)) = .ok t) :
    Becomes e.members (e.row t) where
  id := rfl
  site := rfl
  session := rfl
  type := rfl
  timestamp := ht
  page := ⟨_, rfl, rfl⟩
  referrer := ⟨_, rfl, rfl⟩
  agent := ⟨_, rfl, rfl⟩
  language := ⟨_, rfl, rfl⟩
  device := ⟨_, rfl, rfl⟩
  width := ⟨_, rfl, rfl, hwidth⟩
  scroll := ⟨_, rfl, _, rfl, rfl⟩
  load := ⟨_, rfl, _, rfl, rfl⟩
  truth := ⟨_, rfl, rfl⟩
  experiments := readList_texts _
  variants := readList_texts _
  data := by
    have hdata : Entries.find? "data" e.members = some (.object e.data) := rfl
    rw [PendingEvent.payload, hdata]
    cases hempty : e.data with
    | nil => simp [row, hempty, Json.isNothing]
    | cons m rest => simp [row, hempty, Json.isNothing]

theorem Fits.stored {e : Event} (h : e.Fits) : ∃ t, LooseEvent.stored e.members = .ok (e.row t) := by
  obtain ⟨t, ht⟩ := PendingEvent.readTimestamp_zuluText h.offset h.calendar
  exact ⟨t, (becomes_members h.width ht).stored⟩

end Event

namespace LooseEvent

theorem fresh_eq_self {seen : List (Option String)} {batch : List LooseEvent}
    (hdistinct : (batch.map key).Nodup) (hnew : ∀ e ∈ batch, key e ∉ seen) :
    fresh seen batch = batch := by
  induction batch generalizing seen with
  | nil => rfl
  | cons e batch ih =>
    rw [List.map_cons, List.nodup_cons] at hdistinct
    rw [List.forall_mem_cons] at hnew
    rw [fresh_cons_of_not_mem hnew.1, ih hdistinct.2]
    intro d hd hmem
    rcases List.mem_cons.mp hmem with heq | hmem
    · exact hdistinct.1 (heq ▸ List.mem_map_of_mem hd)
    · exact hnew.2 d hd hmem

end LooseEvent

/-- Events with distinct ids all become rows of an empty table. -/
theorem EventTable.insert_members {es : List Event} (hfits : ∀ e ∈ es, e.Fits)
    (hids : (es.map Event.id).Nodup) :
    ∃ rows, insert {} (es.map Event.members) = (⟨rows⟩, .ok (es.length, 0)) ∧
      List.Forall₂ (fun e row => ∃ t, row = e.row t) es rows := by
  have hstored : ∀ m ∈ es.map Event.members, ∃ row, LooseEvent.stored m = .ok row := by
    intro m hm
    obtain ⟨e, he, rfl⟩ := List.mem_map.mp hm
    obtain ⟨t, ht⟩ := (hfits e he).stored
    exact ⟨_, ht⟩
  have hkeys : ((es.map Event.members).map LooseEvent.key).Nodup := by
    rw [List.map_map, show LooseEvent.key ∘ Event.members = some ∘ Event.id from rfl, ← List.map_map]
    exact hids.map (Option.some_injective _)
  obtain ⟨rows, duplicates, hrows, hcount, hinsert⟩ := insert_of_stored {} hstored
  rw [show keys {} = [] from rfl, LooseEvent.fresh_eq_self hkeys fun _ _ => List.not_mem_nil] at hrows
  have hlength := hrows.length_eq
  rw [List.length_map] at hlength hcount
  obtain rfl : duplicates = 0 := by omega
  refine ⟨rows, by rw [hinsert, hlength, List.nil_append], ?_⟩
  refine List.Forall₂.imp ?_
    ((List.forall₂_and_left _ _).mpr ⟨fun e he => he, List.forall₂_map_left_iff.mp hrows⟩)
  rintro e row ⟨he, hrow⟩
  obtain ⟨t, ht⟩ := (hfits e he).stored
  exact ⟨t, Except.ok.inj (hrow.symm.trans ht)⟩

end CohortAnalytics
