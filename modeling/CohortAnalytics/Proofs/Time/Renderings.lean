import CohortAnalytics.Proofs.Number.ReadBack
import CohortAnalytics.Proofs.Time.ReadBack
import CohortAnalytics.Proofs.Time.Resolution

/-!
The renderings of an instant: its own text, the same with `Z`, and the text of a clock that is ahead
of universal time or behind it, with blanks around any of them. All of them are read as the instant,
so that a window and its key parts do not tell them apart.
-/

namespace CohortAnalytics

namespace Stamp

open Instant

theorem of_mem_isoText {p : Char → Prop} (h : ∀ d < 10, p (Nat.digitChar d)) (hpoint : p '.')
    (hcolon : p ':') (hminus : p '-') (hplus : p '+') (hseparator : p 'T') {s : Stamp} :
    ∀ c ∈ s.isoText.toList, p c := by
  simp only [isoText, Instant.write, String.toList_ofList, List.forall_mem_append,
    List.forall_mem_cons]
  refine ⟨⟨of_mem_dateText h hminus, hseparator, of_mem_clockText h hpoint hcolon⟩, ?_⟩
  cases s.offset with
  | none => exact List.forall_mem_nil p
  | some offset => exact of_mem_offsetText h hpoint hcolon hminus hplus

theorem isBlank_of_mem_isoText {s : Stamp} : ∀ c ∈ s.isoText.toList, isBlank c = false :=
  of_mem_isoText (p := fun c => isBlank c = false) (by decide) rfl rfl rfl rfl rfl

theorem spellOffset_isoText (s : Stamp) : spellOffset s.isoText.toList = s.isoText.toList :=
  spellOffset_eq_self
    (of_mem_isoText (by decide) (by decide) (by decide) (by decide) (by decide) (by decide))

theorem asRead_of_dvd {s : Stamp} (h : ∀ o ∈ s.offset, (microsPerSecond : ℤ) ∣ o) : s.asRead = s := by
  obtain ⟨wall, offset⟩ := s
  cases offset with
  | none => rfl
  | some o =>
    obtain ⟨seconds, rfl⟩ := h o rfl
    have hread : readOffset (microsPerSecond * seconds) = microsPerSecond * seconds := by
      rw [readOffset, microsPerSecond]
      split_ifs <;> omega
    rw [asRead, Option.map_some, hread]

theorem universal?_of_shift? {t wall : Instant} {offset : ℤ} (h : t.shift? offset = some wall) :
    universal? ⟨wall, some offset⟩ = some t := by
  have hmicros := Window.micros_of_shift? h
  rw [universal?, shift?, Option.getD_some, ← t.ofMicros?_micros]
  congr 1
  dsimp only
  omega

theorem universal?_plain (t : Instant) : universal? ⟨t, none⟩ = some t := by
  rw [universal?, shift?, ← t.ofMicros?_micros]
  congr 1

end Stamp

namespace Instant

/-- The texts that an instant is written as. An offset is less than a day and of whole seconds, and
the clock that is ahead by it still shows a moment of the calendar. -/
inductive Rendering (t : Instant) : List Char → Prop
  | plain : Rendering t t.isoText.toList
  | zulu : Rendering t (t.isoText.toList ++ ['Z'])
  | ahead {offset : ℤ} {wall : Instant} (hwall : t.shift? offset = some wall)
      (hday : offset.natAbs < microsPerDay) (hwhole : (microsPerSecond : ℤ) ∣ offset) :
      Rendering t (Stamp.isoText ⟨wall, some offset⟩).toList

variable {t : Instant} {cs : List Char}

theorem isoText_plain (t : Instant) : t.isoText = Stamp.isoText ⟨t, none⟩ := by
  simp [isoText, Stamp.isoText]

theorem zuluText_plain (t : Instant) :
    t.isoText.toList ++ ['Z'] = (Stamp.zuluText ⟨t, some 0⟩).toList := by
  simp [isoText, Stamp.zuluText]

/-- A rendering spelled out is the text of a clock that shows the instant and is read as it stands. -/
theorem Rendering.exists_stamp (h : t.Rendering cs) : ∃ s : Stamp, s.universal? = some t ∧
    spellOffset cs = s.isoText.toList ∧ ∀ o ∈ s.offset, o.natAbs < microsPerDay ∧
      (microsPerSecond : ℤ) ∣ o := by
  cases h with
  | plain =>
    refine ⟨⟨t, none⟩, Stamp.universal?_plain t, ?_, by simp⟩
    rw [isoText_plain, Stamp.spellOffset_isoText]
  | zulu =>
    refine ⟨⟨t, some 0⟩, Stamp.universal?_plain t, ?_, by simp; decide⟩
    rw [zuluText_plain, Stamp.spellOffset_zuluText]
  | @ahead offset wall hwall hday hwhole =>
    refine ⟨⟨wall, some offset⟩, Stamp.universal?_of_shift? hwall, Stamp.spellOffset_isoText _, ?_⟩
    rintro o ⟨⟩
    exact ⟨hday, hwhole⟩

theorem Rendering.isBlank_eq_false (h : t.Rendering cs) : ∀ c ∈ cs, isBlank c = false := by
  cases h with
  | plain => exact isoText_plain t ▸ Stamp.isBlank_of_mem_isoText
  | zulu =>
    rw [isoText_plain, List.forall_mem_append]
    exact ⟨Stamp.isBlank_of_mem_isoText, List.forall_mem_singleton.mpr rfl⟩
  | ahead => exact Stamp.isBlank_of_mem_isoText

/-- A text that is a rendering of the instant but for blanks before and after. -/
def IsWritten (t : Instant) (s : String) : Prop := ∃ before cs after, t.Rendering cs ∧
  (∀ c ∈ before, isBlank c = true) ∧ (∀ c ∈ after, isBlank c = true) ∧
    s.toList = before ++ (cs ++ after)

theorem IsWritten.readTimestamp {s : String} (h : t.IsWritten s) :
    readTimestamp (some s) = .ok (some t) := by
  obtain ⟨before, cs, after, hrendering, hbefore, hafter, htext⟩ := h
  obtain ⟨stamp, huniversal, hspelled, hoffset⟩ := hrendering.exists_stamp
  have hread := Iso.read_isoText fun o ho => (hoffset o ho).1
  have htrim := trimBlank_append hbefore hrendering.isBlank_eq_false hafter
  rw [Stamp.asRead_of_dvd fun o ho => (hoffset o ho).2, ← hspelled, ← htrim, ← htext] at hread
  have hne : s ≠ "" := by
    rintro rfl
    cases hread
  simp only [CohortAnalytics.readTimestamp, if_neg hne, hread, huniversal]

end Instant

namespace TimeInput

/-- What a request may give for an instant: a text, or a clock that shows it. -/
inductive Denotes : TimeInput → Instant → Prop
  | text {s : String} {t : Instant} (h : t.IsWritten s) : Denotes (.text s) t
  | plain {t : Instant} : Denotes (.stamp ⟨t, none⟩) t
  | ahead {t wall : Instant} {offset : ℤ} (hwall : t.shift? offset = some wall) :
      Denotes (.stamp ⟨wall, some offset⟩) t

theorem Denotes.readTime {a : TimeInput} {t : Instant} (h : a.Denotes t) :
    readTime (some a) = .ok (some t) := by
  cases h with
  | text h => exact h.readTimestamp
  | plain => simp only [CohortAnalytics.readTime, Stamp.universal?_plain]
  | ahead hwall => simp only [CohortAnalytics.readTime, Stamp.universal?_of_shift? hwall]

end TimeInput

namespace Window

/-- Whatever an instant is given as, it is read as itself, and a window that it bounds has the
instant for its bound and the instant's own text for its key part. -/
theorem bounds_by_denoted {t : Instant} {a b : TimeInput} (ha : a.Denotes t) (hb : b.Denotes t) :
    readTime (some a) = .ok (some t) ∧ ∀ (other : Option TimeInput) (days : ℤ),
      ofRequest (some a) other days = ofRequest (some b) other days ∧
      ofRequest other (some a) days = ofRequest other (some b) days ∧
      (∀ w, ofRequest (some a) other days = .ok w →
        w.start = some t ∧ ("start", t.isoText) ∈ w.keyParts) ∧
      ∀ w, ofRequest other (some a) days = .ok w →
        w.finish = some t ∧ ("end", t.isoText) ∈ w.keyParts := by
  have hread := ha.readTime
  have hsame : readTime (some a) = readTime (some b) := hread.trans hb.readTime.symm
  refine ⟨hread, fun other days => ⟨?_, ?_, fun w hw => ?_, fun w hw => ?_⟩⟩
  · rw [ofRequest, ofRequest, hsame]
  · rw [ofRequest, ofRequest, hsame]
  · have hstart := Except.ok.inj (hread.symm.trans (ofRequest_inv hw).1)
    exact ⟨hstart.symm, by simp [keyParts, sideText, ← hstart]⟩
  · have hfinish := Except.ok.inj (hread.symm.trans (ofRequest_inv hw).2.1)
    exact ⟨hfinish.symm, by simp [keyParts, sideText, ← hfinish]⟩

/-- Half past four of the first of March 2024, and half a minute and a microsecond. -/
def marchNight : Instant := ⟨63844864230000001, by decide⟩

/-- What a clock shows at that moment that is five hours and half a minute behind: it is still the
leap day. -/
def leapEvening : Instant := ⟨63844846200000001, by decide⟩

theorem bounds_by_denoted_leapDay :
    let a : TimeInput := .text "\t2024-02-29T23:30:00.000001-05:00:30 "
    let b : TimeInput := .text "2024-03-01T04:30:30.000001Z"
    a.Denotes marchNight ∧ b.Denotes marchNight ∧ readTime (some a) = .ok (some marchNight) ∧
      ∀ (other : Option TimeInput) (days : ℤ),
        ofRequest (some a) other days = ofRequest (some b) other days ∧
        ofRequest other (some a) days = ofRequest other (some b) days ∧
        (∀ w, ofRequest (some a) other days = .ok w →
          w.start = some marchNight ∧ ("start", marchNight.isoText) ∈ w.keyParts) ∧
        ∀ w, ofRequest other (some a) days = .ok w →
          w.finish = some marchNight ∧ ("end", marchNight.isoText) ∈ w.keyParts := by
  intro a b
  have hbehind : marchNight.Rendering (Stamp.isoText ⟨leapEvening, some (-18030000000)⟩).toList :=
    .ahead (by decide) (by decide) (by decide)
  have ha : a.Denotes marchNight :=
    .text ⟨['\t'], _, [' '], hbehind, List.forall_mem_singleton.mpr rfl,
      List.forall_mem_singleton.mpr rfl, by decide +kernel⟩
  have hb : b.Denotes marchNight :=
    .text ⟨[], _, [], .zulu, List.forall_mem_nil _, List.forall_mem_nil _, by decide +kernel⟩
  exact ⟨ha, hb, bounds_by_denoted ha hb⟩

end Window

end CohortAnalytics
