import CohortAnalytics.Time.Window
import CohortAnalytics.Proofs.Results

/-!
Which moments have a universal time: those that an offset does not take out of the years of the
calendar. A window fails for this reason alone when one of its sides does, and the sides are read
one after the other.
-/

namespace CohortAnalytics

namespace Stamp

/-- The universal time is before the first year or after the last. -/
def LeavesCalendar (s : Stamp) : Prop :=
  (s.wall.micros : ℤ) - s.offset.getD 0 < 0 ∨
    3652059 * microsPerDay ≤ (s.wall.micros : ℤ) - s.offset.getD 0

instance (s : Stamp) : Decidable s.LeavesCalendar := inferInstanceAs (Decidable (_ ∨ _))

theorem universal?_eq_none_iff (s : Stamp) : s.universal? = none ↔ s.LeavesCalendar := by
  rw [universal?, Instant.shift?, Instant.ofMicros?, LeavesCalendar]
  split_ifs with h <;> simp <;> omega

end Stamp

namespace TimeInput

/-- What a clock shows at the moment; empty text and text that cannot be read show nothing. -/
def stamp? : TimeInput → Option Stamp
  | .text s => if s = "" then none else (Iso.read (spellOffset (trimBlank s.toList))).toOption
  | .stamp s => some s

def LeavesCalendar (t : TimeInput) : Prop := ∃ s ∈ t.stamp?, s.LeavesCalendar

theorem readTime_outside_iff (t : TimeInput) :
    readTime (some t) = .error .outsideCalendar ↔ t.LeavesCalendar := by
  cases t with
  | stamp s =>
    simp only [LeavesCalendar, stamp?, Option.mem_some_iff, exists_eq_left', readTime,
      ← s.universal?_eq_none_iff]
    cases s.universal? <;> simp
  | text s =>
    rw [LeavesCalendar, readTime, readTimestamp, stamp?]
    split_ifs with hempty
    · simp
    · cases Iso.read (spellOffset (trimBlank s.toList)) with
      | error e => simp [Except.toOption]
      | ok stamp =>
        simp only [Except.toOption, Option.mem_some_iff, exists_eq_left',
          ← stamp.universal?_eq_none_iff]
        cases stamp.universal? <;> simp

end TimeInput

namespace Window

theorem make_error {start finish : Option Instant} {days : ℤ} {e : WindowError}
    (h : make start finish days = .error e) :
    (∃ s ∈ start, ∃ f ∈ finish, e = .reversed s f) ∨ e = .daysNotPositive := by
  unfold make at h
  split_ifs at h with hordered hdays
  · exact .inr (Except.error.inj h).symm
  · split at h
    · exact .inl ⟨_, rfl, _, rfl, (Except.error.inj h).symm⟩
    · exact .inr (Except.error.inj h).symm

theorem make_ok {start finish : Option Instant} {days : ℤ} {w : Window}
    (h : make start finish days = .ok w) : w.start = start ∧ w.finish = finish ∧ w.days = days := by
  unfold make at h
  split_ifs at h
  · obtain rfl := Except.ok.inj h
    exact ⟨rfl, rfl, rfl⟩
  · split at h <;> cases h

theorem ofRequest_inv {start finish : Option TimeInput} {days : ℤ} {w : Window}
    (h : ofRequest start finish days = .ok w) :
    readTime start = .ok w.start ∧ readTime finish = .ok w.finish ∧ w.days = days := by
  obtain ⟨first, hfirst, h⟩ := bind_ok h
  obtain ⟨last, hlast, h⟩ := bind_ok h
  obtain ⟨rfl, rfl, hdays⟩ := make_ok h
  exact ⟨mapError_ok hfirst, mapError_ok hlast, hdays⟩

/-- The first side that cannot be used leaves the calendar. -/
inductive FirstLeaves (start finish : Option TimeInput) : Prop
  | start {t : TimeInput} (h : t ∈ start) (hleaves : t.LeavesCalendar)
  | finish {t : TimeInput} {first : Option Instant} (hfirst : readTime start = .ok first)
      (h : t ∈ finish) (hleaves : t.LeavesCalendar)

theorem ofRequest_outside_iff (start finish : Option TimeInput) (days : ℤ) :
    ofRequest start finish days = .error (.timestamp .outsideCalendar) ↔
      FirstLeaves start finish := by
  have houtside {side : Option TimeInput} :
      readTime side = .error .outsideCalendar ↔ ∃ t ∈ side, t.LeavesCalendar := by
    cases side with
    | none => simp [readTime]
    | some t => simpa using t.readTime_outside_iff
  constructor
  · intro h
    rw [ofRequest] at h
    rcases bind_error_iff.mp h with h | ⟨first, hfirst, h⟩
    · obtain ⟨e, he, hcause⟩ := mapError_error h
      obtain ⟨t, ht, hleaves⟩ := houtside.mp (WindowError.timestamp.inj hcause ▸ he)
      exact .start ht hleaves
    rcases bind_error_iff.mp h with h | ⟨last, -, h⟩
    · obtain ⟨e, he, hcause⟩ := mapError_error h
      obtain ⟨t, ht, hleaves⟩ := houtside.mp (WindowError.timestamp.inj hcause ▸ he)
      exact .finish (mapError_ok hfirst) ht hleaves
    · rcases make_error h with ⟨s, -, f, -, he⟩ | he <;> cases he
  · rintro (⟨ht, hleaves⟩ | ⟨hfirst, ht, hleaves⟩)
    · rw [ofRequest, houtside.mpr ⟨_, ht, hleaves⟩]
      rfl
    · rw [ofRequest, hfirst, houtside.mpr ⟨_, ht, hleaves⟩]
      rfl

end Window

def dawn : Instant := default

def dusk : Instant := ⟨3652059 * microsPerDay - 1, by decide⟩

/-- All of the calendar. -/
def ever : Window := ⟨some dawn, some dusk, 1, Int.one_pos, by decide⟩

theorem within_ever (t : Instant) : dawn.micros ≤ t.micros ∧ t.micros ≤ dusk.micros :=
  ⟨Nat.zero_le _, Nat.le_pred_of_lt t.inRange⟩

end CohortAnalytics
