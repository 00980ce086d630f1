import CohortAnalytics.Proofs.Time.Conversion

/-!
The bounds of a window at a moment. What a request names is kept, an open end is the present and an
open start lies the days of the window before the end; the bounds are in order unless the window is
left open after a start that is still to come.
-/

namespace CohortAnalytics.Window

/-- The bounds that a request asks for at a moment. -/
structure AreBounds (start finish : Option Instant) (days : ℤ) (now first last : Stamp) : Prop where
  keepsStart : ∀ t ∈ start, first = ⟨t, none⟩
  keepsFinish : ∀ t ∈ finish, last = ⟨t, none⟩
  present : finish = none → last = now
  trailing : start = none → first.offset = last.offset ∧
    (first.wall.micros : ℤ) = last.wall.micros - days * microsPerDay

/-- The days before the end reach back behind the first year. -/
def ReachesBack (start finish : Option Instant) (days : ℤ) (now : Stamp) : Prop :=
  start = none ∧ ((finish.getD now.wall).micros : ℤ) < days * microsPerDay

/-- The start is named and still to come, and the end is open. -/
def StartsAhead (start finish : Option Instant) (now : Stamp) : Prop :=
  finish = none ∧ ∃ t ∈ start, now.wall.micros < t.micros

theorem shift?_eq_none_iff {t : Instant} {days : ℤ} (hdays : 0 < days) :
    t.shift? (-(days * microsPerDay)) = none ↔ (t.micros : ℤ) < days * microsPerDay := by
  have hrange := t.inRange
  have hpos : 0 < days * microsPerDay := mul_pos hdays (by decide)
  rw [Instant.shift?, Instant.ofMicros?]
  split_ifs with h <;> simp <;> omega

theorem micros_of_shift? {s t : Instant} {micros : ℤ} (h : s.shift? micros = some t) :
    (t.micros : ℤ) = s.micros + micros := by
  rw [Instant.shift?, Instant.ofMicros?] at h
  split_ifs at h with hrange
  obtain rfl := Option.some.inj h
  exact Int.toNat_of_nonneg hrange.1

section Resolved

variable {w : Window} {now : Stamp}

theorem resolveStamps?_named {t : Instant} (hstart : w.start = some t) :
    w.resolveStamps? now = some (⟨t, none⟩,
      ⟨w.finish.getD now.wall, if w.finish.isSome then none else now.offset⟩) := by
  simp [resolveStamps?, resolve?, hstart]

theorem resolveStamps?_trailing (hstart : w.start = none) :
    w.resolveStamps? now = ((w.finish.getD now.wall).shift? (-(w.days * microsPerDay))).map fun t =>
      (⟨t, if w.finish.isSome then none else now.offset⟩,
        ⟨w.finish.getD now.wall, if w.finish.isSome then none else now.offset⟩) := by
  simp only [resolveStamps?, resolve?, hstart]
  cases (w.finish.getD now.wall).shift? (-(w.days * microsPerDay)) <;> rfl

theorem resolveStamps?_eq_none_iff :
    w.resolveStamps? now = none ↔ ReachesBack w.start w.finish w.days now := by
  cases hstart : w.start with
  | some t => simp [resolveStamps?_named hstart, ReachesBack]
  | none => simp [resolveStamps?_trailing hstart, ReachesBack, shift?_eq_none_iff w.days_pos]

variable {first last : Stamp} (h : w.resolveStamps? now = some (first, last))

include h

theorem areBounds_of_resolveStamps? : AreBounds w.start w.finish w.days now first last := by
  cases hstart : w.start with
  | some t =>
    rw [resolveStamps?_named hstart] at h
    obtain ⟨rfl, rfl⟩ := Prod.mk.inj (Option.some.inj h)
    refine ⟨fun _ ht => by rw [Option.some.inj ht], fun t ht => ?_, fun hopen => ?_, fun hnone => ?_⟩
    · simp [Option.mem_def.mp ht]
    · simp [hopen]
    · cases hnone
  | none =>
    rw [resolveStamps?_trailing hstart] at h
    obtain ⟨t, ht, hpair⟩ := Option.map_eq_some_iff.mp h
    obtain ⟨rfl, rfl⟩ := Prod.mk.inj hpair
    refine ⟨fun _ hnone => (by cases hnone), fun e he => ?_, fun hopen => ?_, fun _ => ⟨rfl, ?_⟩⟩
    · simp [Option.mem_def.mp he]
    · simp [hopen]
    · have hmicros := micros_of_shift? ht
      dsimp only
      omega

theorem le_iff_not_startsAhead :
    first.wall.micros ≤ last.wall.micros ↔ ¬StartsAhead w.start w.finish now := by
  have hbounds := areBounds_of_resolveStamps? h
  cases hstart : w.start with
  | none =>
    have hpos : 0 < w.days * microsPerDay := mul_pos w.days_pos (by decide)
    have htrailing := (hbounds.trailing hstart).2
    simp only [StartsAhead, Option.mem_def, reduceCtorEq, false_and, exists_false, and_false,
      not_false_eq_true, iff_true]
    omega
  | some s =>
    rw [hbounds.keepsStart s hstart]
    cases hfinish : w.finish with
    | some e =>
      rw [hbounds.keepsFinish e hfinish]
      simpa [StartsAhead] using w.ordered s hstart e hfinish
    | none => simp [StartsAhead, hbounds.present hfinish]

end Resolved

/-- A window that is accepted has the bounds that its request asks for, at every moment whose
trailing days the calendar holds; they run forward just where the start is not ahead of an open end. -/
theorem resolves_as_asked {start finish : Option TimeInput} {days : ℤ} {w : Window}
    (h : ofRequest start finish days = .ok w) (now : Stamp) :
    ∃ s e, readTime start = .ok s ∧ readTime finish = .ok e ∧
      (w.resolveStamps? now = none ↔ ReachesBack s e days now) ∧
      ∀ first last, w.resolveStamps? now = some (first, last) → AreBounds s e days now first last ∧
        (first.wall.micros ≤ last.wall.micros ↔ ¬StartsAhead s e now) := by
  obtain ⟨hstart, hfinish, rfl⟩ := ofRequest_inv h
  exact ⟨w.start, w.finish, hstart, hfinish, resolveStamps?_eq_none_iff, fun first last hbounds =>
    ⟨areBounds_of_resolveStamps? hbounds, le_iff_not_startsAhead hbounds⟩⟩

/-- Noon of the first of March 2026. -/
def marchNoon : Instant := ⟨63907963200000000, by decide⟩

/-- The start of the first of June 2026. -/
def juneDawn : Instant := ⟨63915868800000000, by decide⟩

theorem readTimestamp_june : readTimestamp (some "2026-06-01") = .ok (some juneDawn) := by
  decide +kernel

theorem resolves_as_asked_trailing :
    let w : Window := ⟨none, some juneDawn, 30, by decide, by simp⟩
    let now : Stamp := ⟨marchNoon, none⟩
    ofRequest none (some (.text "2026-06-01")) 30 = .ok w ∧
      ∃ s e, readTime none = .ok s ∧ readTime (some (.text "2026-06-01")) = .ok e ∧
        (w.resolveStamps? now = none ↔ ReachesBack s e 30 now) ∧
        ∀ first last, w.resolveStamps? now = some (first, last) → AreBounds s e 30 now first last ∧
          (first.wall.micros ≤ last.wall.micros ↔ ¬StartsAhead s e now) := by
  intro w now
  have h : ofRequest none (some (.text "2026-06-01")) 30 = .ok w := by
    simp only [ofRequest, readTime, readTimestamp_june]
    rfl
  exact ⟨h, resolves_as_asked h now⟩

/-- A start that is still to come is accepted with an open end and resolves to a window that runs
backward, from June to March; the same two bounds are refused when both are given. -/
theorem resolves_backward : ∃ w,
    readTimestamp (some "2026-03-01T12:00:00") = .ok (some marchNoon) ∧
      ofRequest (some (.text "2026-06-01")) none 30 = .ok w ∧
      w.resolveStamps? ⟨marchNoon, none⟩ = some (⟨juneDawn, none⟩, ⟨marchNoon, none⟩) ∧
      marchNoon.micros < juneDawn.micros ∧
      ofRequest (some (.text "2026-06-01")) (some (.text "2026-03-01T12:00:00")) 30 =
        .error (.reversed juneDawn marchNoon) := by
  have hmarch : readTimestamp (some "2026-03-01T12:00:00") = .ok (some marchNoon) := by
    decide +kernel
  refine ⟨⟨some juneDawn, none, 30, by decide, by simp⟩, hmarch, ?_, rfl, by decide, ?_⟩
  · simp only [ofRequest, readTime, readTimestamp_june]
    rfl
  · simp only [ofRequest, readTime, readTimestamp_june, hmarch]
    rfl

end CohortAnalytics.Window
