import CohortAnalytics.Number.Places
import CohortAnalytics.Proofs.Number.Compare

/-!
Roundings that stay between neighbours: where an exact number lies between two numbers of the grid of
doubles, its double lies between them too. Nothing is said about ties.
-/

namespace CohortAnalytics

open Float.Model Float.Model.UnpackedFloat

namespace Binary

theorem ofFloat?_of_toBits {x : Float} {b : Binary} (hb : b.IsDouble)
    (h : x.toBits.toNat = b.pattern + if b.negative then 2 ^ 63 else 0) : ofFloat? x = some b := by
  obtain ⟨hlt, hge, hle, hfull⟩ := hb
  obtain ⟨negative, mantissa, exponent⟩ := b
  simp only [pattern] at *
  have hsign : (x.toBits.toNat / 2 ^ 63 == 1) = negative := by
    cases negative <;> simp only [Bool.false_eq_true, if_false, if_true] at h <;>
      simp only [beq_eq_false_iff_ne, beq_iff_eq] <;> omega
  have hfield : x.toBits.toNat / 2 ^ 52 % 2 ^ 11 = (exponent + 1074).toNat + mantissa / 2 ^ 52 := by
    split_ifs at h <;> omega
  have hfraction : x.toBits.toNat % 2 ^ 52 = mantissa % 2 ^ 52 := by
    split_ifs at h <;> omega
  simp only [ofFloat?, hsign, hfield, hfraction]
  rw [if_neg (by omega)]
  split_ifs with hsub
  · obtain rfl : exponent = -1074 := by omega
    rw [Nat.mod_eq_of_lt (by omega)]
  · congr 2 <;> omega

theorem toBits_ofBits {n : ℕ} (hn : n < 2 ^ 64) (hfield : n / 2 ^ 52 % 2 ^ 11 ≠ 2047) :
    (Float.ofBits n.toUInt64).toBits.toNat = n := by
  have hnat : (n.toUInt64).toBitVec.toNat = n := by
    simpa using hn
  have hvalid : Format.binary64.Valid (n.toUInt64).toBitVec := by
    constructor
    intro hexponent
    have := unpackExponent_toNat (n.toUInt64).toBitVec
    rw [hexponent, hnat] at this
    exact absurd this.symm hfield
  change (UnpackedFloat.pack Format.binary64 (UnpackedFloat.unpack Format.binary64
    (n.toUInt64).toBitVec)).toNat = n
  rw [pack_unpack _ hvalid, hnat]

end Binary

/-- Numbers that doubles hold exactly, up to well below the greatest of them. -/
def OnGrid (q : ℚ) : Prop :=
  ∃ n k : ℤ, |n| ≤ 2 ^ 53 ∧ -1074 ≤ k ∧ k ≤ 969 ∧ q = n * 2 ^ k

theorem onGrid_int (n : ℤ) (h : |n| ≤ 2 ^ 53) : OnGrid n := ⟨n, 0, h, by omega, by omega, by simp⟩

theorem onGrid_natCast (n : ℕ) (h : n ≤ 2 ^ 53) : OnGrid n := by
  exact_mod_cast onGrid_int n (by rw [Nat.abs_cast]; exact_mod_cast h)

theorem onGrid_zero : OnGrid 0 := by
  exact_mod_cast onGrid_natCast 0 (by norm_num)

theorem onGrid_one : OnGrid 1 := by
  exact_mod_cast onGrid_natCast 1 (by norm_num)

theorem onGrid_ofNat (n : ℕ) [n.AtLeastTwo] (h : n ≤ 2 ^ 53) : OnGrid (OfNat.ofNat n) := by
  exact_mod_cast onGrid_natCast n h

theorem onGrid_zpow (k : ℤ) (hge : -1074 ≤ k) (hle : k ≤ 969) : OnGrid (2 ^ k) :=
  ⟨1, k, by norm_num, hge, hle, by simp⟩

theorem OnGrid.neg {q : ℚ} (h : OnGrid q) : OnGrid (-q) := by
  obtain ⟨n, k, hn, hge, hle, rfl⟩ := h
  exact ⟨-n, k, by rwa [abs_neg], hge, hle, by push_cast; ring⟩

theorem OnGrid.le {q : ℚ} (h : OnGrid q) : q ≤ 2 ^ (1022 : ℤ) := by
  obtain ⟨n, k, hn, -, hk, rfl⟩ := h
  have hn' : (n : ℚ) ≤ 2 ^ (53 : ℤ) := by exact_mod_cast (le_abs_self n).trans hn
  calc (n : ℚ) * 2 ^ k ≤ 2 ^ (53 : ℤ) * 2 ^ (969 : ℤ) := by
        gcongr
        norm_num
    _ = 2 ^ (1022 : ℤ) := by rw [← zpow_add₀ (by norm_num)]; norm_num

/-- Well below the greatest double, doubles are numbers of the grid. -/
theorem Binary.IsDouble.onGrid {b : Binary} (hb : b.IsDouble) (h : |b.exact| ≤ 2 ^ (1021 : ℤ)) :
    OnGrid b.exact := by
  have hsmall : b.exponent ≤ 969 := by
    by_contra hlarge
    have hfull : (2 : ℚ) ^ (52 : ℤ) ≤ b.mantissa := by
      exact_mod_cast hb.full.resolve_right (by omega)
    have hbound : (2 : ℚ) ^ (1022 : ℤ) ≤ 2 ^ (1021 : ℤ) :=
      calc (2 : ℚ) ^ (1022 : ℤ) ≤ 2 ^ (52 : ℤ) * 2 ^ (970 : ℤ) := by
            rw [← zpow_add₀ (by norm_num)]
            exact zpow_le_zpow_right₀ (by norm_num) (by norm_num)
        _ ≤ b.mantissa * 2 ^ b.exponent := by
            have hunit : (2 : ℚ) ^ (970 : ℤ) ≤ 2 ^ b.exponent :=
              zpow_le_zpow_right₀ (by norm_num) (by omega)
            exact mul_le_mul hfull hunit (by positivity) (Nat.cast_nonneg _)
        _ ≤ 2 ^ (1021 : ℤ) := by
            rw [← magnitudeValue, ← b.abs_exact]
            exact h
    have := (zpow_le_zpow_iff_right₀ (by norm_num : (1 : ℚ) < 2)).mp hbound
    omega
  have hmagnitude : OnGrid b.magnitudeValue :=
    ⟨b.mantissa, b.exponent, by rw [Nat.abs_cast]; exact_mod_cast hb.mantissa_lt.le,
      hb.exponent_ge, hsmall, by rw [magnitudeValue, Int.cast_natCast]⟩
  rw [exact_eq]
  split_ifs
  · exact hmagnitude.neg
  · exact hmagnitude

theorem Binary.IsDouble.onGrid_of_le_two {b : Binary} (hb : b.IsDouble) (hnonneg : 0 ≤ b.exact)
    (hle : b.exact ≤ 2) : OnGrid b.exact := by
  apply hb.onGrid
  rw [abs_of_nonneg hnonneg]
  calc b.exact ≤ 2 ^ (1 : ℤ) := by rwa [zpow_one]
    _ ≤ 2 ^ (1021 : ℤ) := zpow_le_zpow_right₀ (by norm_num) (by norm_num)

/-- A finite double between two numbers. -/
def Within (lo hi : ℚ) (x : Float) : Prop :=
  ∃ b, Binary.ofFloat? x = some b ∧ lo ≤ b.exact ∧ b.exact ≤ hi

instance (lo hi : ℚ) (x : Float) : Decidable (Within lo hi x) :=
  decidable_of_iff ((Binary.ofFloat? x).any fun b => lo ≤ b.exact ∧ b.exact ≤ hi) (by
    cases h : Binary.ofFloat? x <;> simp [Within, h])

/-- Wherever the exact number lies between two numbers of the grid, the double does. -/
def Faithful (v : ℚ) (x : Float) : Prop :=
  ∀ lo hi, OnGrid lo → OnGrid hi → lo ≤ v → v ≤ hi → Within lo hi x

/-- Between zero and two the rounding error is no more than the distance of two numbers of the grid. -/
theorem Faithful.error_le {v : ℚ} {x : Float} (h : Faithful v x) (hnonneg : 0 ≤ v) (hlt : v < 2) :
    ∃ b, Binary.ofFloat? x = some b ∧ |b.exact - v| ≤ 2 ^ (-52 : ℤ) := by
  obtain ⟨unit, hunit⟩ : ∃ unit : ℚ, unit = 2 ^ (-52 : ℤ) := ⟨_, rfl⟩
  have hpos : 0 < unit := by
    rw [hunit]
    positivity
  have hscale : v = v * 2 ^ 52 * unit := by
    rw [hunit, mul_assoc, ← zpow_natCast, ← zpow_add₀ (by norm_num)]
    norm_num
  have hgrid (n : ℤ) (hn : |n| ≤ 2 ^ 53) : OnGrid (n * unit) :=
    ⟨n, -52, hn, by norm_num, by norm_num, by rw [hunit]⟩
  obtain ⟨n, hn⟩ : ∃ n : ℤ, ⌊v * 2 ^ 52⌋ = n := ⟨_, rfl⟩
  obtain ⟨hbelow, habove⟩ := Int.floor_eq_iff.mp hn
  have hlow : 0 ≤ n := by
    rw [← hn]
    exact Int.floor_nonneg.mpr (by positivity)
  have hhigh : n < 2 ^ 53 := by
    rw [← hn, Int.floor_lt]
    push_cast
    linarith
  have hge : n * unit ≤ v := by
    rw [hscale]
    gcongr
  have hle : v ≤ (n + 1 : ℤ) * unit := by
    rw [hscale]
    gcongr
    push_cast
    exact habove.le
  obtain ⟨b, hb, hbge, hble⟩ := h _ _ (hgrid n (by rw [abs_of_nonneg hlow]; exact hhigh.le))
    (hgrid (n + 1) (by rw [abs_of_nonneg (by omega)]; omega)) hge hle
  push_cast at hle hble
  refine ⟨b, hb, abs_le.mpr ⟨?_, ?_⟩⟩ <;> rw [← hunit] <;> linarith

/-- One of the two whole numbers around a number, and the number itself if it is whole. -/
structure Near (x : ℚ) (r : ℕ) : Prop where
  above : ∀ n : ℤ, n ≤ x → n ≤ r
  below : ∀ n : ℤ, x ≤ n → r ≤ n

/-- A multiple of `2 ^ t` next to a number. The mantissa is used in full unless the exponent is the
least. -/
structure Cell (v : ℚ) (t : ℤ) (r : ℕ) : Prop where
  exponent_ge : -1074 ≤ t
  full : t = -1074 ∨ 2 ^ (t + 52) ≤ v
  small : v ≤ 2 ^ (t + 53)
  near : Near (v / 2 ^ t) r

namespace Cell

variable {v q : ℚ} {t : ℤ} {r : ℕ}

theorem above (h : Cell v t r) (n : ℤ) (hn : n * 2 ^ t ≤ v) : n ≤ r :=
  h.near.above n ((le_div_iff₀ (by positivity)).mpr hn)

theorem below (h : Cell v t r) (n : ℤ) (hn : v ≤ n * 2 ^ t) : r ≤ n :=
  h.near.below n ((div_le_iff₀ (by positivity)).mpr hn)

theorem two_zpow_add (t : ℤ) (n : ℕ) : (2 : ℚ) ^ (t + n) = ((2 ^ n : ℤ) : ℚ) * 2 ^ t := by
  rw [zpow_add₀ (by norm_num), mul_comm]
  norm_num

theorem multiple_of_le (n : ℤ) {t k : ℤ} (h : t ≤ k) : ∃ m : ℤ, (n : ℚ) * 2 ^ k = m * 2 ^ t := by
  obtain ⟨j, rfl⟩ := Int.le.dest h
  refine ⟨n * 2 ^ j, ?_⟩
  rw [zpow_add₀ (by norm_num), zpow_natCast]
  push_cast
  ring

theorem multiple_or_small {n k : ℤ} (hn : |n| ≤ 2 ^ 53) (hleast : -1074 ≤ k) (t : ℤ) :
    (∃ m : ℤ, (n : ℚ) * 2 ^ k = m * 2 ^ t) ∨ t ≠ -1074 ∧ |(n : ℚ) * 2 ^ k| ≤ 2 ^ (t + 52) := by
  by_cases hk : t ≤ k
  · exact .inl (multiple_of_le n hk)
  · refine .inr ⟨by omega, ?_⟩
    have hn' : |(n : ℚ)| ≤ 2 ^ (53 : ℤ) := by exact_mod_cast hn
    rw [abs_mul, abs_of_pos (show (0 : ℚ) < 2 ^ k by positivity)]
    calc |(n : ℚ)| * 2 ^ k ≤ 2 ^ (53 : ℤ) * 2 ^ (t - 1) := by
          gcongr
          · norm_num
          · omega
      _ = 2 ^ (t + 52) := by
          rw [← zpow_add₀ (by norm_num)]
          congr 1
          omega

/-- A number of the grid is a multiple of `2 ^ t` or has no place in the cell. -/
theorem onGrid_cases (hq : OnGrid q) (t : ℤ) :
    (∃ n : ℤ, q = n * 2 ^ t) ∨ t ≠ -1074 ∧ |q| ≤ 2 ^ (t + 52) := by
  obtain ⟨n, k, hn, hleast, -, rfl⟩ := hq
  exact multiple_or_small hn hleast t

theorem le_of_onGrid (h : Cell v t r) (hq : OnGrid q) (hle : q ≤ v) : q ≤ r * 2 ^ t := by
  have hmultiple {n : ℤ} (hn : (n : ℚ) * 2 ^ t ≤ v) : (n : ℚ) * 2 ^ t ≤ r * 2 ^ t := by
    have : (n : ℚ) ≤ r := by exact_mod_cast h.above n hn
    gcongr
  rcases onGrid_cases hq t with ⟨n, rfl⟩ | ⟨ht, hsmall⟩
  · exact hmultiple hle
  · have hfull := h.full.resolve_left ht
    rw [show t + 52 = t + (52 : ℕ) from rfl, two_zpow_add] at hfull hsmall
    exact (le_abs_self q).trans (hsmall.trans (hmultiple hfull))

theorem ge_of_onGrid (h : Cell v t r) (hq : OnGrid q) (hle : v ≤ q) : r * 2 ^ t ≤ q := by
  have hmultiple {n : ℤ} (hn : v ≤ (n : ℚ) * 2 ^ t) : r * 2 ^ t ≤ (n : ℚ) * 2 ^ t := by
    have : (r : ℚ) ≤ n := by exact_mod_cast h.below n hn
    gcongr
  rcases onGrid_cases hq t with ⟨n, rfl⟩ | ⟨ht, hsmall⟩
  · exact hmultiple hle
  · have hfull := h.full.resolve_left ht
    have heq : q = 2 ^ (t + 52) := le_antisymm ((le_abs_self q).trans hsmall) (hfull.trans hle)
    rw [show t + 52 = t + (52 : ℕ) from rfl, two_zpow_add] at heq
    rw [heq] at hle ⊢
    exact hmultiple hle

theorem exponent_le (h : Cell v t r) (hq : OnGrid q) (hle : v ≤ q) : t ≤ 970 := by
  by_contra hgt
  have hfull := h.full.resolve_left (by omega)
  have hbound : (2 : ℚ) ^ (t + 52) ≤ 2 ^ (1022 : ℤ) := (hfull.trans hle).trans hq.le
  have := (zpow_le_zpow_iff_right₀ (by norm_num : (1 : ℚ) < 2)).mp hbound
  omega

theorem mantissa_le (h : Cell v t r) : r ≤ 2 ^ 53 := by
  have hsmall := h.small
  rw [show t + 53 = t + (53 : ℕ) from rfl, two_zpow_add] at hsmall
  exact_mod_cast h.below _ hsmall

theorem mantissa_full (h : Cell v t r) : 2 ^ 52 ≤ r ∨ t = -1074 := by
  rcases h.full with ht | hfull
  · exact .inr ht
  · left
    rw [show t + 52 = t + (52 : ℕ) from rfl, two_zpow_add] at hfull
    exact_mod_cast h.above _ hfull

end Cell

/-- Taking one from a double between a half and two is exact. -/
theorem Binary.IsDouble.onGrid_sub_one {b : Binary} (hb : b.IsDouble) (hge : 1 / 2 ≤ b.exact)
    (hlt : b.exact < 2) : OnGrid (b.exact - 1) := by
  have hvalue : b.exact = b.mantissa * 2 ^ b.exponent := by
    have habs := b.abs_exact
    rwa [abs_of_nonneg (by linarith), magnitudeValue] at habs
  have hexponent : -53 ≤ b.exponent := by
    by_contra hsmall
    have hmantissa : (b.mantissa : ℚ) < 2 ^ (53 : ℤ) := by exact_mod_cast hb.mantissa_lt
    have hbound : b.exact < 2 ^ (53 : ℤ) * 2 ^ (-54 : ℤ) := by
      rw [hvalue]
      exact mul_lt_mul hmantissa (zpow_le_zpow_right₀ (by norm_num) (by omega)) (by positivity)
        (by positivity)
    norm_num at hbound
    linarith
  obtain ⟨k, hk⟩ := Cell.multiple_of_le b.mantissa hexponent
  rw [Int.cast_natCast, ← hvalue] at hk
  have hunit : (2 : ℚ) ^ (-53 : ℤ) * 2 ^ 53 = 1 := by
    rw [← zpow_natCast, ← zpow_add₀ (by norm_num)]
    norm_num
  have hscaled : (k : ℚ) = b.exact * 2 ^ 53 := by
    rw [hk, mul_assoc, hunit, mul_one]
  have hlow : 0 ≤ k := by
    have : (0 : ℚ) ≤ k := by linarith
    exact_mod_cast this
  have hhigh : k < 2 ^ 54 := by
    have : (k : ℚ) < 2 ^ 54 := by linarith
    exact_mod_cast this
  refine ⟨k - 2 ^ 53, -53, ?_, by norm_num, by norm_num, ?_⟩
  · rw [abs_le]
    omega
  · rw [Int.cast_sub, sub_mul, ← hk]
    norm_num
namespace Binary

/-- A mantissa that has been rounded up to the next power of two moves to the next exponent. -/
def carried (negative : Bool) (r : ℕ) (t : ℤ) : Binary :=
  if r < 2 ^ 53 then ⟨negative, r, t⟩ else ⟨negative, 2 ^ 52, t + 1⟩

variable {v : ℚ} {t : ℤ} {r : ℕ}

theorem carried_negative (negative : Bool) (r : ℕ) (t : ℤ) :
    (carried negative r t).negative = negative := by
  rw [carried]
  split_ifs <;> rfl

theorem carried_isDouble (h : Cell v t r) (ht : t ≤ 970) (negative : Bool) :
    (carried negative r t).IsDouble := by
  have hge := h.exponent_ge
  rw [carried]
  split_ifs with hlt
  · exact ⟨hlt, hge, by dsimp only; omega, h.mantissa_full⟩
  · exact ⟨by norm_num, by dsimp only; omega, by dsimp only; omega, .inl (le_refl _)⟩

theorem carried_pattern (h : Cell v t r) (negative : Bool) :
    (carried negative r t).pattern = (t + 1074).toNat * 2 ^ 52 + r := by
  have hge := h.exponent_ge
  have hle := h.mantissa_le
  rw [carried, pattern]
  split_ifs with hlt
  · rfl
  · dsimp only
    omega

theorem carried_exact (h : Cell v t r) (negative : Bool) :
    (carried negative r t).exact = if negative then -((r : ℚ) * 2 ^ t) else (r : ℚ) * 2 ^ t := by
  have hvalue : (carried negative r t).magnitudeValue = r * 2 ^ t := by
    rw [carried, magnitudeValue]
    split_ifs with hlt
    · rfl
    · obtain rfl : r = 2 ^ 53 := le_antisymm h.mantissa_le (by omega)
      dsimp only
      rw [zpow_add_one₀ (by norm_num)]
      push_cast
      ring
  rw [exact_eq, hvalue, carried_negative]

end Binary

theorem Cell.faithful {v : ℚ} {t : ℤ} {r : ℕ} (h : Cell v t r) {negative : Bool} {x : Float}
    (hx : t ≤ 970 → Binary.ofFloat? x = some (Binary.carried negative r t)) :
    Faithful (if negative then -v else v) x := by
  intro lo hi hlo hhi hlow hhigh
  cases negative with
  | false =>
    have hexact := Binary.carried_exact h false
    refine ⟨_, hx (h.exponent_le hhi hhigh), ?_, ?_⟩
    · rw [hexact]
      exact h.le_of_onGrid hlo hlow
    · rw [hexact]
      exact h.ge_of_onGrid hhi hhigh
  | true =>
    have hexact := Binary.carried_exact h true
    simp only [if_true] at hlow hhigh hexact
    have hlow' : v ≤ -lo := by linarith
    have hhigh' : -hi ≤ v := by linarith
    refine ⟨_, hx (h.exponent_le hlo.neg hlow'), ?_, ?_⟩
    · rw [hexact]
      have := h.ge_of_onGrid hlo.neg hlow'
      linarith
    · rw [hexact]
      have := h.le_of_onGrid hhi.neg hhigh'
      linarith

namespace Faithful

variable {v : ℚ} {x : Float}

theorem zero {negative : Bool} (hx : Binary.ofFloat? x = some ⟨negative, 0, -1074⟩) :
    Faithful 0 x := by
  intro lo hi _ _ hlow hhigh
  have hexact : (⟨negative, 0, -1074⟩ : Binary).exact = 0 := Binary.exact_zero rfl
  exact ⟨_, hx, hexact ▸ hlow, hexact ▸ hhigh⟩

end Faithful

namespace Binary

theorem nearest_near (num : ℕ) {den : ℕ} (hden : 0 < den) :
    Near ((num : ℚ) / den) (nearest num den) := by
  have hpos : (0 : ℚ) < den := by exact_mod_cast hden
  have hwhole : num / den ≤ nearest num den ∧ nearest num den ≤ num / den + 1 ∧
      (num % den = 0 → nearest num den = num / den) := by
    unfold nearest
    dsimp only
    split_ifs <;> omega
  have hsum := Nat.div_add_mod num den
  constructor
  · intro n hn
    rw [le_div_iff₀ hpos] at hn
    have hn' : n * den ≤ num := by exact_mod_cast hn
    have : n ≤ (num / den : ℕ) := by
      push_cast
      exact Int.le_ediv_of_mul_le (by omega) hn'
    omega
  · intro n hn
    rw [div_le_iff₀ hpos] at hn
    have hn' : (num : ℤ) ≤ n * den := by exact_mod_cast hn
    have hge : ((num / den : ℕ) : ℤ) ≤ n := by
      push_cast
      exact Int.ediv_le_of_le_mul (by omega) hn'
    rcases hge.lt_or_eq with hlt | heq
    · omega
    · have hdiv : (num : ℤ) = den * n + (num % den : ℕ) := by
        rw [← heq]
        exact_mod_cast hsum.symm
      have hrest : num % den = 0 := by
        rw [mul_comm] at hdiv
        omega
      have := hwhole.2.2 hrest
      omega

theorem quotient_cell_nearest {num den : ℕ} (hnum : 0 < num) (hden : 0 < den) :
    ∃ t : ℤ, Cell ((num : ℚ) / den) t (nearest (num * 2 ^ (-t).toNat) (den * 2 ^ t.toNat)) ∧
      quotientBits num den =
        (t + 1074).toNat * 2 ^ 52 + nearest (num * 2 ^ (-t).toNat) (den * 2 ^ t.toNat) := by
  obtain ⟨hlow, hhigh⟩ := magnitude_spec num den hnum hden
  refine ⟨_, ⟨le_max_right _ _, ?_, ?_, ?_⟩, rfl⟩
  · rcases max_choice (magnitude num den - 52) (-1074) with h | h
    · right
      rw [h, sub_add_cancel]
      exact hlow
    · exact .inl h
  · refine hhigh.le.trans (zpow_le_zpow_right₀ (by norm_num) ?_)
    omega
  · rw [← scaled_quotient]
    exact nearest_near _ (by positivity)

theorem quotient_cell {num den : ℕ} (hnum : 0 < num) (hden : 0 < den) :
    ∃ t r, Cell ((num : ℚ) / den) t r ∧ quotientBits num den = (t + 1074).toNat * 2 ^ 52 + r := by
  obtain ⟨t, hcell, hbits⟩ := quotient_cell_nearest hnum hden
  exact ⟨t, _, hcell, hbits⟩

theorem ofFloat?_ofBits {b : Binary} (hb : b.IsDouble) :
    ofFloat? (Float.ofBits (b.pattern + if b.negative then 2 ^ 63 else 0).toUInt64) = some b := by
  apply ofFloat?_of_toBits hb
  have hlt := hb.pattern_lt
  rw [infinityBits] at hlt
  apply toBits_ofBits <;> split_ifs <;> omega

theorem isDouble_zero (negative : Bool) : IsDouble ⟨negative, 0, -1074⟩ :=
  ⟨by norm_num, le_refl _, by norm_num, .inr rfl⟩

theorem pattern_zero (negative : Bool) : pattern ⟨negative, 0, -1074⟩ = 0 := by
  simp [pattern]

theorem ofFloat?_ofQuotient {negative : Bool} {num den : ℕ} (hnum : 0 < num) {t : ℤ} {r : ℕ}
    (hcell : Cell ((num : ℚ) / den) t r)
    (hbits : quotientBits num den = (t + 1074).toNat * 2 ^ 52 + r)
    (hdouble : (carried negative r t).IsDouble) :
    ofFloat? (ofQuotient negative num den) = some (carried negative r t) := by
  have hx := ofFloat?_ofBits hdouble
  rw [carried_negative] at hx
  rwa [ofQuotient, if_neg hnum.ne', hbits, ← carried_pattern hcell negative,
    Nat.min_eq_left hdouble.pattern_lt.le]

theorem ofQuotient_faithful (negative : Bool) (num : ℕ) {den : ℕ} (hden : 0 < den) :
    Faithful (if negative then -((num : ℚ) / den) else (num : ℚ) / den)
      (ofQuotient negative num den) := by
  rcases Nat.eq_zero_or_pos num with rfl | hnum
  · simp only [Nat.cast_zero, zero_div, neg_zero, ite_self]
    have hzero := ofFloat?_ofBits (isDouble_zero negative)
    rw [pattern_zero] at hzero
    apply Faithful.zero
    rw [ofQuotient, if_pos rfl]
    exact hzero
  · obtain ⟨t, r, hcell, hbits⟩ := quotient_cell hnum hden
    exact hcell.faithful fun ht =>
      ofFloat?_ofQuotient hnum hcell hbits (carried_isDouble hcell ht negative)

/-- A quotient well inside the range of doubles has a double. -/
theorem ofRatio?_faithful {num den : ℕ} (hden : 0 < den) {bound : ℚ} (hbound : OnGrid bound)
    (hle : (num : ℚ) / den ≤ bound) :
    ∃ x, ofRatio? num den = some x ∧ Faithful ((num : ℚ) / den) x := by
  refine ⟨_, ?_, ofQuotient_faithful false num hden⟩
  have hfits : ¬(num ≠ 0 ∧ infinityBits ≤ quotientBits num den) := by
    rintro ⟨hnum, hge⟩
    obtain ⟨t, r, hcell, hbits⟩ := quotient_cell (Nat.pos_of_ne_zero hnum) hden
    have hlt := (carried_isDouble hcell (hcell.exponent_le hbound hle) false).pattern_lt
    rw [carried_pattern hcell, ← hbits] at hlt
    omega
  have hsign : ((decide ((num : ℤ) < 0) != decide ((den : ℤ) < 0)) && (num : ℤ) != 0) = false := by
    rw [decide_eq_false (by omega), decide_eq_false (by omega)]
    rfl
  rw [ofRatio?, Int.natAbs_natCast, Int.natAbs_natCast, if_neg hfits, hsign]

end Binary

theorem Within.roundPlaces {x : Float} {bound : ℕ} (h : Within 0 bound x) (hbound : OnGrid bound)
    (places : ℕ) : Within 0 bound (roundPlaces places x) := by
  obtain ⟨b, hb, hlow, hhigh⟩ := h
  have hvalue := b.numerator_div_denominator
  have hden := b.denominator_pos
  have hnear := Binary.nearest_near (b.numerator * 10 ^ places) hden
  rw [Nat.cast_mul, mul_div_right_comm, hvalue] at hnear
  rw [Binary.exact_eq] at hlow hhigh
  have hnonneg := b.magnitudeValue_nonneg
  have hle : b.magnitudeValue ≤ bound := by
    split_ifs at hlow hhigh <;> linarith
  have hplaces : Binary.nearest (b.numerator * 10 ^ places) b.denominator ≤ bound * 10 ^ places := by
    have := hnear.below (bound * 10 ^ places) (by push_cast; gcongr)
    exact_mod_cast this
  have hten : 0 < 10 ^ places := by positivity
  have hfaithful := Binary.ofQuotient_faithful b.negative (b.inPlaces places) hten
  have hshare : (b.inPlaces places : ℚ) / (10 ^ places : ℕ) ≤ bound := by
    rw [div_le_iff₀ (by positivity)]
    exact_mod_cast hplaces
  simp only [CohortAnalytics.roundPlaces, hb]
  refine hfaithful 0 bound (onGrid_int 0 (by norm_num)) hbound ?_ ?_
  · split_ifs at hlow ⊢ with hneg
    · have hzero : b.magnitudeValue = 0 := by linarith
      have hnone : b.inPlaces places ≤ 0 := by
        have := hnear.below 0 (by simp [hzero])
        exact_mod_cast this
      simp [Nat.le_zero.mp hnone]
    · positivity
  · split_ifs
    · have : (0 : ℚ) ≤ (b.inPlaces places : ℚ) / (10 ^ places : ℕ) := by positivity
      linarith [Nat.cast_nonneg (α := ℚ) bound]
    · exact hshare

end CohortAnalytics
