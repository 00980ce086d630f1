import CohortAnalytics.Number.Shortest
import Mathlib

/-!
Rounding of an exact quotient to a double: the quotients that become a given double are those
within half a unit of its last place.
-/

namespace CohortAnalytics

namespace Binary

theorem zpow_eq_div (a : ℕ) (ha : 0 < a) (k : ℤ) :
    (a : ℚ) ^ k = (a : ℚ) ^ k.toNat / (a : ℚ) ^ (-k).toNat := by
  have hne : (a : ℚ) ≠ 0 := by exact_mod_cast ha.ne'
  rw [← zpow_natCast, ← zpow_natCast, ← zpow_sub₀ hne]
  congr 1
  omega

theorem mul_pow_le_iff (num den : ℕ) (hden : 0 < den) (k : ℤ) :
    den * 2 ^ k.toNat ≤ num * 2 ^ (-k).toNat ↔ (2 : ℚ) ^ k ≤ (num : ℚ) / den := by
  have h := zpow_eq_div 2 (by omega) k
  push_cast at h
  rw [h, div_le_div_iff₀ (by positivity) (by exact_mod_cast hden)]
  rw [mul_comm den]
  exact_mod_cast Iff.rfl

theorem magnitude_spec (num den : ℕ) (hnum : 0 < num) (hden : 0 < den) :
    (2 : ℚ) ^ magnitude num den ≤ (num : ℚ) / den ∧
      (num : ℚ) / den < (2 : ℚ) ^ (magnitude num den + 1) := by
  have hnumLow : (2 : ℚ) ^ (num.log2 : ℤ) ≤ num := by
    exact_mod_cast Nat.log2_self_le hnum.ne'
  have hnumHigh : (num : ℚ) < (2 : ℚ) ^ ((num.log2 : ℤ) + 1) := by
    exact_mod_cast Nat.lt_log2_self (n := num)
  have hdenLow : (2 : ℚ) ^ (den.log2 : ℤ) ≤ den := by
    exact_mod_cast Nat.log2_self_le hden.ne'
  have hdenHigh : (den : ℚ) < (2 : ℚ) ^ ((den.log2 : ℤ) + 1) := by
    exact_mod_cast Nat.lt_log2_self (n := den)
  have hdenPos : (0 : ℚ) < den := by exact_mod_cast hden
  -- The difference of the logarithms is right or one too many.
  have hhigh : (num : ℚ) / den < (2 : ℚ) ^ ((num.log2 : ℤ) - den.log2 + 1) := by
    rw [div_lt_iff₀ hdenPos]
    calc (num : ℚ) < (2 : ℚ) ^ ((num.log2 : ℤ) - den.log2 + 1) * 2 ^ (den.log2 : ℤ) := by
          rw [← zpow_add₀ (by norm_num)]
          convert hnumHigh using 2
          omega
      _ ≤ _ := by gcongr
  have hlow : (2 : ℚ) ^ ((num.log2 : ℤ) - den.log2 - 1) ≤ (num : ℚ) / den := by
    rw [le_div_iff₀ hdenPos]
    calc (2 : ℚ) ^ ((num.log2 : ℤ) - den.log2 - 1) * den
        ≤ (2 : ℚ) ^ ((num.log2 : ℤ) - den.log2 - 1) * 2 ^ ((den.log2 : ℤ) + 1) := by gcongr
      _ = 2 ^ (num.log2 : ℤ) := by
          rw [← zpow_add₀ (by norm_num)]
          congr 1
          omega
      _ ≤ num := hnumLow
  unfold magnitude
  dsimp only
  split
  case isTrue h => exact ⟨(mul_pow_le_iff num den hden _).mp h, hhigh⟩
  case isFalse h =>
    rw [mul_pow_le_iff num den hden, not_le] at h
    exact ⟨hlow, by simpa using h⟩

theorem le_magnitude_iff {num den : ℕ} (hnum : 0 < num) (hden : 0 < den) {k : ℤ} :
    k ≤ magnitude num den ↔ (2 : ℚ) ^ k ≤ (num : ℚ) / den := by
  obtain ⟨hlow, hhigh⟩ := magnitude_spec num den hnum hden
  constructor
  · intro h
    exact (zpow_le_zpow_right₀ (by norm_num) h).trans hlow
  · intro h
    exact Int.lt_add_one_iff.mp ((zpow_lt_zpow_iff_right₀ one_lt_two).mp (h.trans_lt hhigh))

theorem magnitude_lt_iff {num den : ℕ} (hnum : 0 < num) (hden : 0 < den) {k : ℤ} :
    magnitude num den < k ↔ (num : ℚ) / den < (2 : ℚ) ^ k := by
  rw [← not_le, le_magnitude_iff hnum hden, not_le]

theorem magnitude_eq {num den : ℕ} {k : ℤ} (hnum : 0 < num) (hden : 0 < den)
    (hlow : (2 : ℚ) ^ k ≤ (num : ℚ) / den) (hhigh : (num : ℚ) / den < (2 : ℚ) ^ (k + 1)) :
    magnitude num den = k := by
  have hle := (le_magnitude_iff hnum hden).mpr hlow
  have hlt := (magnitude_lt_iff hnum hden).mpr hhigh
  omega

/-- Rounding finds the whole number within a half; at exactly a half it has to be even. -/
theorem nearest_eq {num den m : ℕ} (hden : 0 < den) (hlow : (m : ℚ) - 1 / 2 ≤ (num : ℚ) / den)
    (hhigh : (num : ℚ) / den ≤ m + 1 / 2)
    (hodd : m % 2 = 1 → (m : ℚ) - 1 / 2 < (num : ℚ) / den ∧ (num : ℚ) / den < m + 1 / 2) :
    nearest num den = m := by
  have hpos : (0 : ℚ) < den := by exact_mod_cast hden
  have hlow' : 2 * (m * den) ≤ 2 * num + den := by
    rw [le_div_iff₀ hpos] at hlow
    have : (2 : ℚ) * (m * den) ≤ 2 * num + den := by linarith
    exact_mod_cast this
  have hhigh' : 2 * num ≤ 2 * (m * den) + den := by
    rw [div_le_iff₀ hpos] at hhigh
    have : (2 : ℚ) * num ≤ 2 * (m * den) + den := by linarith
    exact_mod_cast this
  have hodd' : m % 2 = 1 → 2 * (m * den) < 2 * num + den ∧ 2 * num < 2 * (m * den) + den := by
    intro h
    obtain ⟨h1, h2⟩ := hodd h
    rw [lt_div_iff₀ hpos] at h1
    rw [div_lt_iff₀ hpos] at h2
    have h1' : (2 : ℚ) * (m * den) < 2 * num + den := by linarith
    have h2' : (2 : ℚ) * num < 2 * (m * den) + den := by linarith
    exact ⟨by exact_mod_cast h1', by exact_mod_cast h2'⟩
  -- Only the whole part of the quotient and the number after it are within a half.
  have hsum := Nat.div_add_mod num den
  have hrest := Nat.mod_lt num hden
  have hle : num / den ≤ m := by
    by_contra h
    have := Nat.mul_le_mul_left den (show m + 1 ≤ num / den by omega)
    rw [Nat.mul_add, Nat.mul_comm den m] at this
    omega
  have hge : m ≤ num / den + 1 := by
    by_contra h
    have := Nat.mul_le_mul_left den (show num / den + 2 ≤ m by omega)
    rw [Nat.mul_add, Nat.mul_comm den m] at this
    omega
  clear hlow hhigh hodd
  unfold nearest
  dsimp only
  rcases (show num / den = m ∨ num / den + 1 = m by omega) with rfl | rfl
  · rw [Nat.mul_comm] at hhigh' hodd'
    grind
  · rw [Nat.add_mul, Nat.mul_comm _ den] at hlow' hodd'
    grind

/-- What a double looks like: the mantissa is used in full unless the exponent is the least. -/
structure IsDouble (b : Binary) : Prop where
  mantissa_lt : b.mantissa < 2 ^ 53
  exponent_ge : -1074 ≤ b.exponent
  exponent_le : b.exponent ≤ 971
  full : 2 ^ 52 ≤ b.mantissa ∨ b.exponent = -1074

def pattern (b : Binary) : ℕ := (b.exponent + 1074).toNat * 2 ^ 52 + b.mantissa

/-- The magnitudes that round to a number, in quarters of its last place. -/
structure Rounds (b : Binary) (v : ℚ) : Prop where
  above : (b.lower : ℚ) ≤ 4 * (v / 2 ^ b.exponent)
  below : 4 * (v / 2 ^ b.exponent) ≤ b.upper
  inside : b.mantissa % 2 = 1 →
    (b.lower : ℚ) < 4 * (v / 2 ^ b.exponent) ∧ 4 * (v / 2 ^ b.exponent) < b.upper

theorem lower_ge (b : Binary) : (4 : ℚ) * b.mantissa ≤ b.lower + 2 := by
  have hle : 4 * b.mantissa ≤ b.lower + 2 := by
    unfold lower
    split <;> omega
  exact_mod_cast hle

theorem lower_add_one_le {b : Binary} (hm : 0 < b.mantissa) : (b.lower : ℚ) + 1 ≤ 4 * b.mantissa := by
  have hle : b.lower + 1 ≤ 4 * b.mantissa := by
    unfold lower
    split <;> omega
  exact_mod_cast hle

theorem lower_of_ne {b : Binary} (hm : 0 < b.mantissa) (hfull : b.mantissa ≠ 2 ^ 52) :
    (b.lower : ℚ) + 2 = 4 * b.mantissa := by
  have heq : b.lower + 2 = 4 * b.mantissa := by
    rw [lower, if_neg (fun h => hfull h.1)]
    omega
  exact_mod_cast heq

theorem upper_cast (b : Binary) : (b.upper : ℚ) = 4 * b.mantissa + 2 := by simp [upper]

theorem scaled_quotient (num den : ℕ) (q : ℤ) :
    ((num * 2 ^ (-q).toNat : ℕ) : ℚ) / (den * 2 ^ q.toNat : ℕ) = (num : ℚ) / den / 2 ^ q := by
  have h := zpow_eq_div 2 (by omega) q
  push_cast at h ⊢
  rw [h]
  field_simp

theorem zpow_add_le_iff (e : ℤ) (k : ℕ) (v : ℚ) : (2 : ℚ) ^ (e + k) ≤ v ↔ 2 ^ k ≤ v / 2 ^ e := by
  rw [zpow_add₀ two_ne_zero, zpow_natCast, le_div_iff₀ (by positivity), mul_comm]

theorem lt_zpow_add_iff (e : ℤ) (k : ℕ) (v : ℚ) : v < (2 : ℚ) ^ (e + k) ↔ v / 2 ^ e < 2 ^ k := by
  rw [← not_le, zpow_add_le_iff, not_le]

section Quotients

variable {b : Binary} {num den : ℕ}

theorem Rounds.magnitude_lt (h : b.Rounds ((num : ℚ) / den)) (hm : b.mantissa < 2 ^ 53)
    (hnum : 0 < num) (hden : 0 < den) : magnitude num den < b.exponent + 53 := by
  have hmant : (b.mantissa : ℚ) + 1 ≤ 2 ^ 53 := by exact_mod_cast hm
  have hbelow := h.below
  rw [upper_cast] at hbelow
  rw [magnitude_lt_iff hnum hden]
  refine (lt_zpow_add_iff b.exponent 53 _).mpr ?_
  linarith

/-- In units of its own last place a quotient is within a half of the mantissa that it rounds to. -/
theorem Rounds.quotientBits_own (h : b.Rounds ((num : ℚ) / den)) (hden : 0 < den)
    (hunit : max (magnitude num den - 52) (-1074) = b.exponent) :
    quotientBits num den = b.pattern := by
  have hlower := lower_ge b
  obtain ⟨habove, hbelow, hinside⟩ := h
  rw [upper_cast] at hbelow hinside
  unfold quotientBits pattern
  dsimp only
  rw [hunit, nearest_eq (m := b.mantissa) (by positivity)]
  all_goals rw [scaled_quotient]
  · linarith
  · linarith
  · intro hodd
    obtain ⟨hlow, hhigh⟩ := hinside hodd
    constructor <;> linarith

/-- Just below a power of two the unit of rounding is half the number's own. -/
theorem Rounds.quotientBits_below (h : b.Rounds ((num : ℚ) / den)) (hnum : 0 < num) (hden : 0 < den)
    (hge : -1074 < b.exponent) (hmant : b.mantissa = 2 ^ 52)
    (hlt : (num : ℚ) / den / 2 ^ b.exponent < 2 ^ 52) : quotientBits num den = b.pattern := by
  have habove := h.above
  rw [lower, if_pos ⟨hmant, hge⟩, hmant] at habove
  have hmag : magnitude num den = b.exponent + 51 := by
    apply magnitude_eq hnum hden
    · refine (zpow_add_le_iff b.exponent 51 _).mpr ?_
      norm_num at habove ⊢
      linarith
    · rw [add_assoc]
      exact (lt_zpow_add_iff b.exponent 52 _).mpr hlt
  have hunit : max (magnitude num den - 52) (-1074) = b.exponent - 1 := by omega
  have hscaled : (num : ℚ) / den / 2 ^ (b.exponent - 1) = 2 * ((num : ℚ) / den / 2 ^ b.exponent) := by
    rw [zpow_sub_one₀ two_ne_zero]
    field_simp
  unfold quotientBits pattern
  dsimp only
  rw [hunit, nearest_eq (m := 2 ^ 53) (by positivity)]
  · rw [hmant]
    omega
  all_goals rw [scaled_quotient, hscaled]
  · norm_num at habove ⊢
    linarith
  · norm_num at hlt ⊢
    linarith
  · intro hodd
    norm_num at hodd

/-- The nearest double to a quotient that rounds to `b` is `b`. -/
theorem quotientBits_eq (hb : b.IsDouble) (hnum : 0 < num) (hden : 0 < den)
    (h : b.Rounds ((num : ℚ) / den)) : quotientBits num den = b.pattern := by
  have hsize := h.magnitude_lt hb.mantissa_lt hnum hden
  have hge := hb.exponent_ge
  by_cases hleast : b.exponent = -1074
  · exact h.quotientBits_own hden (by omega)
  rcases lt_or_ge ((num : ℚ) / den / 2 ^ b.exponent) (2 ^ 52) with hlt | hfull
  · have hmant : b.mantissa = 2 ^ 52 := by
      have hlower := lower_ge b
      have habove := h.above
      have hle : (b.mantissa : ℚ) < 2 ^ 52 + 1 := by linarith
      have hle' : b.mantissa < 2 ^ 52 + 1 := by exact_mod_cast hle
      have hfull := hb.full.resolve_right hleast
      omega
    exact h.quotientBits_below hnum hden (by omega) hmant hlt
  · have hmag : b.exponent + 52 ≤ magnitude num den :=
      (le_magnitude_iff hnum hden).mpr ((zpow_add_le_iff b.exponent 52 _).mpr hfull)
    exact h.quotientBits_own hden (by omega)

end Quotients

end Binary

end CohortAnalytics
