import CohortAnalytics.Time.Calendar
import Mathlib

/-!
The day number of a date leads back to the date's year, month and day, and what it leads back to is a
date of the calendar.
-/

namespace CohortAnalytics.Date

theorem daysBeforeYear_cycles {centuries fours years : ℕ} (cycles : ℕ) (hc : centuries ≤ 3)
    (hf : fours ≤ 24) (hy : years ≤ 3) :
    daysBeforeYear (400 * cycles + 100 * centuries + 4 * fours + years + 1) =
      146097 * cycles + 36524 * centuries + 1461 * fours + 365 * years := by
  have h4 : (400 * cycles + 100 * centuries + 4 * fours + years) / 4 =
      100 * cycles + 25 * centuries + fours := by omega
  have h100 : (400 * cycles + 100 * centuries + 4 * fours + years) / 100 =
      4 * cycles + centuries := by omega
  have h400 : (400 * cycles + 100 * centuries + 4 * fours + years) / 400 = cycles := by omega
  simp only [daysBeforeYear, Nat.add_sub_cancel, h4, h100, h400]
  omega

theorem yearOf_spec (n : ℕ) :
    daysBeforeYear (yearOf n).1 + (yearOf n).2 = n ∧ (yearOf n).2 ≤ 365 := by
  simp only [yearOf]
  -- A fifth century or a fifth year of a cycle is its last day, and stays in the year before.
  rw [daysBeforeYear_cycles] <;> omega

theorem yearOf_le {n : ℕ} (h : n < 3652059) : (yearOf n).1 ≤ 9999 := by
  simp only [yearOf]
  omega

theorem daysBeforeMonth_succ (year month : ℕ) :
    daysBeforeMonth year (month + 2) =
      daysBeforeMonth year (month + 1) + daysInMonth year (month + 1) := by
  rw [daysBeforeMonth, daysBeforeMonth, Nat.add_sub_cancel, show month + 2 - 1 = month + 1 from rfl,
    List.range_succ, List.map_append, List.sum_append]
  simp

theorem daysBeforeMonth_december (year : ℕ) :
    daysBeforeMonth year 12 = if isLeap year then 335 else 334 := by
  simp [daysBeforeMonth, daysInMonth, List.range_succ]
  cases isLeap year <;> rfl

theorem daysInMonth_le (year month : ℕ) : daysInMonth year month ≤ 31 := by
  unfold daysInMonth
  split_ifs <;> omega

theorem monthOf_spec (year months month left : ℕ) :
    daysBeforeMonth year (monthOf year months (month + 1) left).1 +
        (monthOf year months (month + 1) left).2 = daysBeforeMonth year (month + 1) + left ∧
      month + 1 ≤ (monthOf year months (month + 1) left).1 ∧
      (monthOf year months (month + 1) left).1 ≤ month + 1 + months ∧
      ((monthOf year months (month + 1) left).1 = month + 1 + months ∨
        (monthOf year months (month + 1) left).2 <
          daysInMonth year (monthOf year months (month + 1) left).1) := by
  induction months generalizing month left with
  | zero => simp [monthOf]
  | succ months ih =>
    rw [monthOf]
    by_cases h : left < daysInMonth year (month + 1)
    · rw [if_pos h]
      exact ⟨rfl, le_rfl, by omega, .inr h⟩
    · rw [if_neg h]
      obtain ⟨hdays, hge, hle, hend⟩ := ih (month + 1) (left - daysInMonth year (month + 1))
      rw [daysBeforeMonth_succ] at hdays
      exact ⟨by omega, by omega, by omega, hend.imp_left fun hend => by omega⟩

theorem monthOf_january (year left : ℕ) :
    daysBeforeMonth year (monthOf year 11 1 left).1 + (monthOf year 11 1 left).2 = left ∧
      1 ≤ (monthOf year 11 1 left).1 ∧ (monthOf year 11 1 left).1 ≤ 12 ∧
        ((monthOf year 11 1 left).1 = 12 ∨
          (monthOf year 11 1 left).2 < daysInMonth year (monthOf year 11 1 left).1) := by
  obtain ⟨hdays, hge, hle, hend⟩ := monthOf_spec year 11 0 left
  have hfirst : daysBeforeMonth year (0 + 1) = 0 := rfl
  rw [hfirst, Nat.zero_add left] at hdays
  exact ⟨hdays, hge, hle, hend⟩

theorem number_ofNumber (n : ℕ) : (ofNumber n).number = n := by
  obtain ⟨hyear, -⟩ := yearOf_spec n
  obtain ⟨hmonth, -⟩ := monthOf_january (yearOf n).1 (yearOf n).2
  simp only [ofNumber, number, Nat.add_sub_cancel]
  omega

/-- A year of 366 days is a leap year. -/
theorem isLeap_of_yearOf {n : ℕ} (h : (yearOf n).2 = 365) : isLeap (yearOf n).1 = true := by
  simp only [yearOf] at h ⊢
  simp only [isLeap, Bool.and_eq_true, Bool.or_eq_true, decide_eq_true_eq]
  omega

/-- The dates of the calendar. -/
structure IsProper (d : Date) : Prop where
  year_pos : 1 ≤ d.year
  year_le : d.year ≤ 9999
  month_pos : 1 ≤ d.month
  month_le : d.month ≤ 12
  day_pos : 1 ≤ d.day
  day_le : d.day ≤ daysInMonth d.year d.month

theorem ofNumber_isProper {n : ℕ} (h : n < 3652059) : (ofNumber n).IsProper := by
  obtain ⟨-, hleft⟩ := yearOf_spec n
  obtain ⟨hdays, hge, hle, hend⟩ := monthOf_january (yearOf n).1 (yearOf n).2
  refine ⟨?_, yearOf_le h, hge, hle, Nat.succ_pos _, ?_⟩
  · simp only [ofNumber, yearOf]
    omega
  simp only [ofNumber]
  rcases hend with hend | hend
  · -- Whatever is left of the year after November fits into December.
    rw [hend, daysBeforeMonth_december] at hdays
    rw [hend, show daysInMonth (yearOf n).1 12 = 31 from rfl]
    split_ifs at hdays with hlong
    · omega
    · have hnotLast : (yearOf n).2 ≠ 365 := fun hlast => hlong (isLeap_of_yearOf hlast)
      omega
  · exact hend

theorem ofNumber_le {n : ℕ} (h : n < 3652059) :
    (ofNumber n).year ≤ 9999 ∧ (ofNumber n).month ≤ 12 ∧ (ofNumber n).day ≤ 32 := by
  have hproper := ofNumber_isProper h
  have hmonth := daysInMonth_le (ofNumber n).year (ofNumber n).month
  exact ⟨hproper.year_le, hproper.month_le, by have := hproper.day_le; omega⟩

end CohortAnalytics.Date
