import CohortAnalytics.Time.Window
import CohortAnalytics.Proofs.Json.Quoting
import CohortAnalytics.Proofs.Results
import CohortAnalytics.Proofs.Time.Calendar

/-!
An instant can be read off its text, and a window of a given number of days off its key parts.
-/

namespace CohortAnalytics

namespace Instant

theorem twoDigits_append_inj {m n : ℕ} {rest more : List Char}
    (h : twoDigits m ++ rest = twoDigits n ++ more) : m % 100 = n % 100 ∧ rest = more := by
  simp only [twoDigits, List.cons_append, List.nil_append, List.cons.injEq] at h
  obtain ⟨htens, hones, hrest⟩ := h
  have htens := digitChar_inj (m / 10 % 10) (by omega) (n / 10 % 10) (by omega) htens
  have hones := digitChar_inj (m % 10) (by omega) (n % 10) (by omega) hones
  exact ⟨by omega, hrest⟩

theorem fractionText_inj {m n : ℕ} (hm : m < 1000000) (hn : n < 1000000)
    (h : fractionText m = fractionText n) : m = n := by
  unfold fractionText at h
  by_cases hm0 : m = 0
  · by_cases hn0 : n = 0
    · rw [hm0, hn0]
    · rw [if_pos hm0, if_neg hn0] at h
      exact absurd h (by simp)
  · by_cases hn0 : n = 0
    · rw [if_neg hm0, if_pos hn0] at h
      exact absurd h (by simp)
    · rw [if_neg hm0, if_neg hn0, List.cons.injEq, sixDigits, sixDigits, List.append_assoc,
        List.append_assoc] at h
      obtain ⟨hhigh, hrest⟩ := twoDigits_append_inj h.2
      obtain ⟨hmiddle, hlow⟩ := twoDigits_append_inj hrest
      obtain ⟨hlow, -⟩ := twoDigits_append_inj (congrArg (· ++ []) hlow)
      omega

theorem clockText_inj {m n : ℕ} (hm : m < microsPerDay) (hn : n < microsPerDay)
    (h : clockText m = clockText n) : m = n := by
  simp only [clockText, microsPerSecond, List.append_assoc, List.cons_append] at h
  simp only [microsPerDay, microsPerSecond] at hm hn
  obtain ⟨hhours, h⟩ := twoDigits_append_inj h
  obtain ⟨hminutes, h⟩ := twoDigits_append_inj (List.cons.inj h).2
  obtain ⟨hseconds, h⟩ := twoDigits_append_inj (List.cons.inj h).2
  have hfraction := fractionText_inj (by omega) (by omega) h
  omega

theorem dateText_append_inj {d e : Date} {rest more : List Char}
    (hd : d.year ≤ 9999 ∧ d.month ≤ 12 ∧ d.day ≤ 32) (he : e.year ≤ 9999 ∧ e.month ≤ 12 ∧ e.day ≤ 32)
    (h : dateText d ++ rest = dateText e ++ more) : d = e ∧ rest = more := by
  simp only [dateText, List.append_assoc, List.cons_append] at h
  obtain ⟨hcentury, h⟩ := twoDigits_append_inj h
  obtain ⟨hyear, h⟩ := twoDigits_append_inj h
  obtain ⟨hmonth, h⟩ := twoDigits_append_inj (List.cons.inj h).2
  obtain ⟨hday, hrest⟩ := twoDigits_append_inj (List.cons.inj h).2
  obtain ⟨year, month, day⟩ := d
  obtain ⟨year', month', day'⟩ := e
  dsimp only at *
  refine ⟨?_, hrest⟩
  rw [Date.mk.injEq]
  omega

theorem day_lt (t : Instant) : t.micros / microsPerDay < 3652059 :=
  Nat.div_lt_of_lt_mul (by rw [Nat.mul_comm]; exact t.inRange)

theorem isoText_inj {s t : Instant} (h : s.isoText = t.isoText) : s = t := by
  have hpos : 0 < microsPerDay := by decide
  rw [isoText, isoText, String.ofList_inj, write, write] at h
  obtain ⟨hdate, h⟩ := dateText_append_inj (Date.ofNumber_le s.day_lt) (Date.ofNumber_le t.day_lt) h
  have hday : s.micros / microsPerDay = t.micros / microsPerDay := by
    rw [← Date.number_ofNumber (s.micros / microsPerDay),
      ← Date.number_ofNumber (t.micros / microsPerDay)]
    exact congrArg Date.number hdate
  have hclock := clockText_inj (Nat.mod_lt _ hpos) (Nat.mod_lt _ hpos) (List.cons.inj h).2
  have hmicros : s.micros = t.micros := by
    rw [← Nat.div_add_mod s.micros microsPerDay, hday, hclock, Nat.div_add_mod]
  obtain ⟨micros, hs⟩ := s
  obtain ⟨micros', ht⟩ := t
  obtain rfl : micros = micros' := hmicros
  rfl

theorem isoText_ne_openMarker (t : Instant) : t.isoText ≠ Window.openMarker := by
  intro h
  rw [isoText, Window.openMarker, ← String.toList_inj, String.toList_ofList] at h
  have hfirst : Nat.digitChar (t.date.year / 100 / 10 % 10) = 'd' := (List.cons.inj h).1
  rw [Nat.digitChar_eq_d] at hfirst
  omega

end Instant

namespace Window

theorem sideText_inj {s t : Option Instant} (h : sideText s = sideText t) : s = t := by
  cases s with
  | none =>
    cases t with
    | none => rfl
    | some t => exact absurd h.symm t.isoText_ne_openMarker
  | some s =>
    cases t with
    | none => exact absurd h s.isoText_ne_openMarker
    | some t => rw [Instant.isoText_inj h]

theorem eq_of_sides {v w : Window} (hstart : sideText v.start = sideText w.start)
    (hfinish : sideText v.finish = sideText w.finish) (hdays : v.days = w.days) : v = w := by
  obtain ⟨start, finish, days, _, _⟩ := v
  obtain ⟨start', finish', days', _, _⟩ := w
  obtain rfl : start = start' := sideText_inj hstart
  obtain rfl : finish = finish' := sideText_inj hfinish
  obtain rfl : days = days' := hdays
  rfl

end Window

end CohortAnalytics
