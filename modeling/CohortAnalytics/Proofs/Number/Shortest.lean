import CohortAnalytics.Proofs.Number.Rounding

/-!
The shortest digits of a double stand for a number that rounds to it.
-/

namespace CohortAnalytics

namespace Binary

def magnitudeValue (b : Binary) : ℚ := (b.mantissa : ℚ) * 2 ^ b.exponent

theorem magnitudeValue_nonneg (b : Binary) : 0 ≤ b.magnitudeValue := by
  unfold magnitudeValue
  positivity

theorem denominator_pos (b : Binary) : 0 < b.denominator := by
  unfold denominator
  positivity

theorem numerator_div_denominator (b : Binary) :
    (b.numerator : ℚ) / b.denominator = b.magnitudeValue := by
  have h := zpow_eq_div 2 (by omega) b.exponent
  simp only [numerator, denominator, magnitudeValue]
  push_cast at h ⊢
  rw [h]
  ring

theorem grid_point (b : Binary) (n : ℕ) (k : ℤ) :
    ((n * (10 ^ k.toNat * 2 ^ (2 - b.exponent).toNat) : ℕ) : ℚ) /
        (2 ^ (b.exponent - 2).toNat * 10 ^ (-k).toNat : ℕ) =
      4 * (n * 10 ^ k / 2 ^ b.exponent) := by
  have h10 := zpow_eq_div 10 (by omega) k
  have h2 := zpow_eq_div 2 (by omega) (2 - b.exponent)
  have hneg : -(2 - b.exponent) = b.exponent - 2 := by omega
  rw [hneg, zpow_sub₀ (by norm_num)] at h2
  push_cast at h10 h2 ⊢
  rw [h10]
  have h4 : (4 : ℚ) / 2 ^ b.exponent = 2 ^ (2 - b.exponent).toNat / 2 ^ (b.exponent - 2).toNat := by
    rw [← h2]
  calc _ = (n : ℚ) * (10 ^ k.toNat / 10 ^ (-k).toNat) *
        (2 ^ (2 - b.exponent).toNat / 2 ^ (b.exponent - 2).toNat) := by ring
    _ = _ := by
      rw [← h4]
      ring

theorem covers_iff {b : Binary} {n : ℕ} {k : ℤ} :
    b.covers (b.lower * (2 ^ (b.exponent - 2).toNat * 10 ^ (-k).toNat))
        (n * (10 ^ k.toNat * 2 ^ (2 - b.exponent).toNat))
        (b.upper * (2 ^ (b.exponent - 2).toNat * 10 ^ (-k).toNat)) = true ↔
      b.Rounds (n * 10 ^ k) := by
  have hpoint := grid_point b n k
  have hscale : (0 : ℚ) < (2 ^ (b.exponent - 2).toNat * 10 ^ (-k).toNat : ℕ) := by positivity
  rw [div_eq_iff hscale.ne'] at hpoint
  generalize 2 ^ (b.exponent - 2).toNat * 10 ^ (-k).toNat = scale at *
  generalize n * (10 ^ k.toNat * 2 ^ (2 - b.exponent).toNat) = point at *
  have hle (c : ℕ) : c * scale ≤ point ↔ (c : ℚ) ≤ 4 * (n * 10 ^ k / 2 ^ b.exponent) := by
    rw [← mul_le_mul_iff_left₀ hscale, ← hpoint]
    exact_mod_cast Iff.rfl
  have hge (c : ℕ) : point ≤ c * scale ↔ 4 * (n * 10 ^ k / 2 ^ b.exponent) ≤ (c : ℚ) := by
    rw [← mul_le_mul_iff_left₀ hscale, ← hpoint]
    exact_mod_cast Iff.rfl
  unfold covers
  by_cases heven : b.mantissa % 2 = 0
  · rw [if_pos heven, Bool.and_eq_true, decide_eq_true_eq, decide_eq_true_eq, hle, hge]
    constructor
    · rintro ⟨h1, h2⟩
      exact ⟨h1, h2, by omega⟩
    · rintro ⟨h1, h2, -⟩
      exact ⟨h1, h2⟩
  · rw [if_neg heven, Bool.and_eq_true, decide_eq_true_eq, decide_eq_true_eq, ← not_le, ← not_le,
      hle, hge, not_le, not_le]
    constructor
    · rintro ⟨h1, h2⟩
      exact ⟨h1.le, h2.le, fun _ => ⟨h1, h2⟩⟩
    · rintro ⟨-, -, h⟩
      exact h (by omega)

theorem nearest_eq_div_or (num den : ℕ) : nearest num den = num / den ∨
    nearest num den = num / den + 1 := by
  unfold nearest
  dsimp only
  split_ifs <;> simp

theorem rounds_of_onGrid? {b : Binary} {k : ℤ} {n : ℕ} (h : b.onGrid? k = some n) :
    b.Rounds (n * 10 ^ k) := by
  unfold onGrid? at h
  dsimp only at h
  rw [← covers_iff]
  have hnear := nearest_eq_div_or (4 * b.mantissa * (2 ^ (b.exponent - 2).toNat * 10 ^ (-k).toNat))
    (10 ^ k.toNat * 2 ^ (2 - b.exponent).toNat)
  split_ifs at h with hboth hlow hhigh
  · rw [Bool.and_eq_true] at hboth
    obtain rfl := Option.some.inj h
    rcases hnear with hn | hn
    · rw [hn]
      exact hboth.1
    · rw [hn]
      exact hboth.2
  · obtain rfl := Option.some.inj h
    exact hlow
  · obtain rfl := Option.some.inj h
    exact hhigh

/-- Of the two points of a fine grid next to a number one rounds to it. -/
theorem rounds_next_to {b : Binary} (hb : b.IsDouble) {k : ℤ} {n : ℕ}
    (hfine : (10 : ℚ) ^ (k + 16) ≤ b.magnitudeValue)
    (hbelow : n * (4 * (10 ^ k / 2 ^ b.exponent)) ≤ 4 * (b.mantissa : ℚ))
    (habove : 4 * (b.mantissa : ℚ) < (n + 1) * (4 * (10 ^ k / 2 ^ b.exponent))) :
    b.Rounds (n * 10 ^ k) ∨ b.Rounds ((n + 1 : ℕ) * 10 ^ k) := by
  have hunit : (0 : ℚ) < 2 ^ b.exponent := by positivity
  have hm : (b.mantissa : ℚ) + 1 ≤ 2 ^ 53 := by exact_mod_cast hb.mantissa_lt
  have hgap : 4 * ((10 : ℚ) ^ k / 2 ^ b.exponent) * 10 ^ 16 ≤ 4 * b.mantissa := by
    rw [magnitudeValue, zpow_add₀ (by norm_num)] at hfine
    have := (div_le_iff₀ hunit).mpr hfine
    calc _ = 4 * ((10 : ℚ) ^ k * 10 ^ (16 : ℤ) / 2 ^ b.exponent) := by
          norm_num
          ring
      _ ≤ _ := by linarith
  have hupper := upper_cast b
  have hpoint (i : ℕ) : 4 * ((i : ℚ) * 10 ^ k / 2 ^ b.exponent) =
      i * (4 * ((10 : ℚ) ^ k / 2 ^ b.exponent)) := by ring
  have hrounds (i : ℕ) (h1 : (b.lower : ℚ) < i * (4 * ((10 : ℚ) ^ k / 2 ^ b.exponent)))
      (h2 : i * (4 * ((10 : ℚ) ^ k / 2 ^ b.exponent)) < (b.upper : ℚ)) :
      b.Rounds (i * 10 ^ k) := by
    rw [← hpoint] at h1 h2
    exact ⟨h1.le, h2.le, fun _ => ⟨h1, h2⟩⟩
  generalize 4 * ((10 : ℚ) ^ k / 2 ^ b.exponent) = gap at *
  have hpos : (0 : ℚ) < b.mantissa := by
    by_contra h
    have hzero : (b.mantissa : ℚ) = 0 := le_antisymm (not_lt.mp h) (by positivity)
    rw [hzero] at hgap habove
    nlinarith
  have hlow := lower_add_one_le (Nat.cast_pos.mp hpos)
  -- The interval is wider than the gap: if the point above is outside, the one below is inside.
  by_cases hhigh : (n + 1) * gap < 4 * (b.mantissa : ℚ) + 2
  · right
    apply hrounds <;> push_cast <;> linarith
  · left
    have hfull : b.mantissa ≠ 2 ^ 52 := by
      intro h
      rw [h] at hgap hbelow hhigh
      norm_num at hgap hbelow hhigh
      linarith
    have hlower := lower_of_ne (Nat.cast_pos.mp hpos) hfull
    apply hrounds <;> norm_num at hgap hm <;> linarith

theorem onGrid?_isSome {b : Binary} (hb : b.IsDouble) {k : ℤ}
    (hfine : (10 : ℚ) ^ (k + 16) ≤ b.magnitudeValue) : (b.onGrid? k).isSome := by
  unfold onGrid?
  dsimp only
  generalize hscale : 2 ^ (b.exponent - 2).toNat * 10 ^ (-k).toNat = scale
  generalize hstep : 10 ^ k.toNat * 2 ^ (2 - b.exponent).toNat = step
  have hspos : 0 < scale := by rw [← hscale]; positivity
  have htpos : 0 < step := by rw [← hstep]; positivity
  have hpoint (n : ℕ) : ((n * step : ℕ) : ℚ) = n * (4 * (10 ^ k / 2 ^ b.exponent)) * scale := by
    have := grid_point b n k
    rw [hscale, hstep, div_eq_iff (by exact_mod_cast hspos.ne')] at this
    rw [this]
    ring
  have hscaleQ : (0 : ℚ) < scale := by exact_mod_cast hspos
  have hbelow := Nat.div_mul_le_self (4 * b.mantissa * scale) step
  have habove := Nat.lt_div_mul_add htpos (a := 4 * b.mantissa * scale)
  generalize 4 * b.mantissa * scale / step = below at *
  have h := rounds_next_to hb (n := below) hfine
    (by
      refine (mul_le_mul_iff_left₀ hscaleQ).mp ?_
      rw [← hpoint]
      exact_mod_cast hbelow)
    (by
      refine (mul_lt_mul_iff_left₀ hscaleQ).mp ?_
      have := hpoint (below + 1)
      push_cast at this
      rw [← this, ← Nat.succ_mul] at *
      exact_mod_cast habove)
  rw [← covers_iff, ← covers_iff, hscale, hstep] at h
  split_ifs with hboth hlow hhigh
  · rfl
  · rfl
  · rfl
  · rcases h with h | h
    · exact absurd h hlow
    · exact absurd h hhigh

/-- `30103 / 100000` is close enough to the logarithm of two over the range of doubles. -/
theorem log_ten_two : ∀ n < 1100, 10 ^ (n * 30103 / 100000) ≤ 10 * 2 ^ n ∧
    2 * 2 ^ n ≤ 10 ^ 3 * 10 ^ (n * 30103 / 100000) ∧
    2 ^ n ≤ 10 * 10 ^ ((n * 30103 + 99999) / 100000) ∧
    2 * 10 ^ ((n * 30103 + 99999) / 100000) ≤ 10 ^ 3 * 2 ^ n := by
  decide +kernel

theorem ten_zpow_le_two_zpow {n : ℤ} (hlow : -1100 < n) (hhigh : n < 1100) :
    (10 : ℚ) ^ (n * 30103 / 100000 - 1) ≤ 2 ^ n ∧
      (2 : ℚ) ^ (n + 1) ≤ 10 ^ (n * 30103 / 100000 + 3) := by
  have hten : (10 : ℚ) ≠ 0 := by norm_num
  have htwo : (2 : ℚ) ≠ 0 := by norm_num
  rw [zpow_sub₀ hten, zpow_add₀ hten, zpow_add₀ htwo]
  obtain ⟨m, rfl | rfl⟩ := n.eq_nat_or_neg
  · obtain ⟨h1, h2, -, -⟩ := log_ten_two m (by omega)
    have hfloor : (m : ℤ) * 30103 / 100000 = (m * 30103 / 100000 : ℕ) := by omega
    rw [hfloor, zpow_natCast, zpow_natCast, div_le_iff₀ (by norm_num)]
    rw [mul_comm 10] at h1
    rw [mul_comm 2, mul_comm (10 ^ 3)] at h2
    exact ⟨by exact_mod_cast h1, by exact_mod_cast h2⟩
  · obtain ⟨-, -, h1, h2⟩ := log_ten_two m (by omega)
    have hceil : -(m : ℤ) * 30103 / 100000 = -((m * 30103 + 99999) / 100000 : ℕ) := by omega
    rw [hceil, zpow_neg, zpow_neg, zpow_natCast, zpow_natCast]
    rw [mul_comm 10] at h1
    rw [mul_comm 2] at h2
    constructor
    · rw [zpow_one, div_eq_mul_inv, ← mul_inv]
      exact inv_anti₀ (by positivity) (by exact_mod_cast h1)
    · rw [← div_eq_inv_mul, ← div_eq_inv_mul, div_le_div_iff₀ (by positivity) (by positivity),
        zpow_one, mul_comm]
      exact_mod_cast h2

/-- The estimate of the number of digits before the point is off by at most a few. -/
theorem decimalMagnitude_spec {num den : ℕ} (hnum : 0 < num) (hden : 0 < den)
    (hlow : -1100 < magnitude num den) (hhigh : magnitude num den < 1100) :
    (10 : ℚ) ^ decimalMagnitude num den ≤ (num : ℚ) / den ∧
      (num : ℚ) / den < 10 ^ (decimalMagnitude num den + 4) := by
  obtain ⟨hbelow, habove⟩ := magnitude_spec num den hnum hden
  obtain ⟨hdown, hup⟩ := ten_zpow_le_two_zpow hlow hhigh
  have hreached (e : ℤ) : 10 ^ e.toNat * den ≤ num * 10 ^ (-e).toNat ↔
      (10 : ℚ) ^ e ≤ (num : ℚ) / den := by
    have h := zpow_eq_div 10 (by omega) e
    push_cast at h
    rw [h, div_le_div_iff₀ (by positivity) (by exact_mod_cast hden)]
    exact_mod_cast Iff.rfl
  unfold decimalMagnitude
  simp only [hreached, decide_eq_true_eq]
  have hceil (e : ℤ) (he : magnitude num den * 30103 / 100000 + 3 ≤ e) :
      (num : ℚ) / den < 10 ^ e :=
    (habove.trans_le hup).trans_le (zpow_le_zpow_right₀ (by norm_num) he)
  split_ifs with hnext hthis
  · exact ⟨hnext, hceil _ (by omega)⟩
  · exact ⟨hthis, hceil _ (by omega)⟩
  · exact ⟨hdown.trans hbelow, hceil _ (by omega)⟩

theorem IsDouble.range {b : Binary} (hb : b.IsDouble) (hm : 0 < b.mantissa) :
    (2 : ℚ) ^ (-1074 : ℤ) ≤ b.magnitudeValue ∧ b.magnitudeValue < (2 : ℚ) ^ (1024 : ℤ) := by
  obtain ⟨hlt, hge, hle, -⟩ := hb
  have hone : (1 : ℚ) ≤ b.mantissa := by exact_mod_cast hm
  have hfull : (b.mantissa : ℚ) < 2 ^ (53 : ℤ) := by exact_mod_cast hlt
  constructor
  · calc (2 : ℚ) ^ (-1074 : ℤ) ≤ 1 * 2 ^ b.exponent := by
          rw [one_mul]
          exact zpow_le_zpow_right₀ (by norm_num) hge
      _ ≤ _ := by
          unfold magnitudeValue
          gcongr
  · calc b.magnitudeValue < 2 ^ (53 : ℤ) * 2 ^ b.exponent := by
          unfold magnitudeValue
          gcongr
      _ = 2 ^ (53 + b.exponent) := by rw [zpow_add₀ (by norm_num)]
      _ ≤ _ := zpow_le_zpow_right₀ (by norm_num) (by omega)

theorem IsDouble.magnitude {b : Binary} (hb : b.IsDouble) (hm : 0 < b.mantissa) :
    -1100 < magnitude b.numerator b.denominator ∧ magnitude b.numerator b.denominator < 1100 := by
  have hnum : 0 < b.numerator := by unfold numerator; positivity
  obtain ⟨hlow, hhigh⟩ := hb.range hm
  rw [← numerator_div_denominator] at hlow hhigh
  have hge := (le_magnitude_iff hnum b.denominator_pos).mpr hlow
  have hlt := (magnitude_lt_iff hnum b.denominator_pos).mpr hhigh
  omega

theorem Rounds.range {b : Binary} (hm : 0 < b.mantissa) {v : ℚ} (h : b.Rounds v) :
    (2 : ℚ) ^ (b.exponent - 1) ≤ v ∧ v < 2 * b.magnitudeValue := by
  have hlower := lower_ge b
  have hupper := upper_cast b
  have hone : (1 : ℚ) ≤ b.mantissa := by exact_mod_cast hm
  have hunit : (0 : ℚ) < 2 ^ b.exponent := by positivity
  have hvalue : v = v / 2 ^ b.exponent * 2 ^ b.exponent := by field_simp
  have habove := h.above
  have hbelow := h.below
  rw [hvalue, magnitudeValue, zpow_sub_one₀ (by norm_num)]
  constructor <;> nlinarith

end Binary

namespace Decimal

def value (d : Decimal) : ℚ := (Nat.ofDigitChars 10 d.digits 0 : ℚ) * 10 ^ (d.point - d.digits.length)

theorem ofDigitChars_append_zeros (ds : List Char) (n : ℕ) :
    Nat.ofDigitChars 10 (ds ++ List.replicate n '0') 0 = Nat.ofDigitChars 10 ds 0 * 10 ^ n := by
  rw [Nat.ofDigitChars_append, Nat.ofDigitChars_replicate_zero, Nat.mul_comm]

theorem ofGrid_spec (n : ℕ) (k : ℤ) : ∃ zeros, Nat.toDigits 10 n =
    (ofGrid n k).digits ++ List.replicate zeros '0' := by
  refine ⟨((Nat.toDigits 10 n).reverse.takeWhile (· == '0')).length, ?_⟩
  have hzeros : (Nat.toDigits 10 n).reverse.takeWhile (· == '0') =
      List.replicate ((Nat.toDigits 10 n).reverse.takeWhile (· == '0')).length '0' := by
    rw [List.eq_replicate_iff]
    refine ⟨rfl, fun c hc => ?_⟩
    simpa using List.all_eq_true.mp List.all_takeWhile c hc
  have hsplit := List.takeWhile_append_dropWhile (p := (· == '0')) (l := (Nat.toDigits 10 n).reverse)
  rw [hzeros] at hsplit
  simpa [ofGrid] using (congrArg List.reverse hsplit).symm

theorem ofGrid_value (n : ℕ) (k : ℤ) : (ofGrid n k).value = n * 10 ^ k := by
  obtain ⟨zeros, h⟩ := ofGrid_spec n k
  have hn : (n : ℚ) = Nat.ofDigitChars 10 (ofGrid n k).digits 0 * 10 ^ zeros := by
    have := ofDigitChars_append_zeros (ofGrid n k).digits zeros
    rw [← h, Nat.ofDigitChars_ten_toDigits] at this
    exact_mod_cast this
  have hlength : ((Nat.toDigits 10 n).length : ℤ) = (ofGrid n k).digits.length + zeros := by
    rw [h]
    simp
  have hpoint : (ofGrid n k).point = (Nat.toDigits 10 n).length + k := rfl
  rw [value, hn, hpoint, hlength, mul_assoc, ← zpow_natCast, ← zpow_add₀ (by norm_num)]
  congr 2
  omega

theorem ofGrid_digits (n : ℕ) (k : ℤ) {c : Char} (hc : c ∈ (ofGrid n k).digits) : c.isDigit := by
  obtain ⟨zeros, h⟩ := ofGrid_spec n k
  exact Nat.isDigit_of_mem_toDigits (by omega) (by omega)
    (h ▸ List.mem_append_left _ hc : c ∈ Nat.toDigits 10 n)

theorem ofGrid_digits_length {n j : ℕ} (hj : 0 < j) (hn : n < 10 ^ j) (k : ℤ) :
    (ofGrid n k).digits.length ≤ j := by
  obtain ⟨zeros, h⟩ := ofGrid_spec n k
  have hlength := congrArg List.length h
  have := (Nat.length_toDigits_le_iff (b := 10) (by omega) hj).mpr hn
  rw [List.length_append] at hlength
  omega

/-- The shortest digits read back: they stand for a number that rounds to the double. -/
theorem shortest_spec {b : Binary} (hb : b.IsDouble) (hm : 0 < b.mantissa) :
    ∃ n k, shortest b = ofGrid n k ∧ b.Rounds (n * 10 ^ k) ∧ n < 10 ^ 21 := by
  have hnum : 0 < b.numerator := by unfold Binary.numerator; positivity
  have hden := b.denominator_pos
  obtain ⟨hlow, hhigh⟩ := Binary.decimalMagnitude_spec hnum hden (hb.magnitude hm).1 (hb.magnitude hm).2
  rw [Binary.numerator_div_denominator] at hlow hhigh
  unfold shortest
  dsimp only
  generalize Binary.decimalMagnitude b.numerator b.denominator = top at *
  have hsome : ((List.range 17).findSome? fun (n : ℕ) =>
      (b.onGrid? (top - n)).map (ofGrid · (top - n))).isSome := by
    rw [List.findSome?_isSome_iff]
    refine ⟨16, by simp, ?_⟩
    rw [Option.isSome_map]
    exact Binary.onGrid?_isSome hb (by simpa using hlow)
  obtain ⟨d, hd⟩ := Option.isSome_iff_exists.mp hsome
  obtain ⟨i, hi, hgrid⟩ := List.exists_of_findSome?_eq_some hd
  obtain ⟨n, hn, rfl⟩ := Option.map_eq_some_iff.mp hgrid
  have hrounds := Binary.rounds_of_onGrid? hn
  refine ⟨n, top - i, by rw [hd, Option.getD_some], hrounds, ?_⟩
  have hsize : (n : ℚ) * 10 ^ (top - i) < 10 ^ (21 : ℤ) * 10 ^ (top - i) := by
    have hi' : i < 17 := List.mem_range.mp hi
    calc (n : ℚ) * 10 ^ (top - i) < 2 * 10 ^ (top + 4) := by linarith [(hrounds.range hm).2]
      _ ≤ 10 ^ (1 : ℤ) * 10 ^ (top + 4) := by gcongr; norm_num
      _ = 10 ^ (1 + (top + 4)) := (zpow_add₀ (by norm_num) _ _).symm
      _ ≤ 10 ^ (21 + (top - i)) := zpow_le_zpow_right₀ (by norm_num) (by omega)
      _ = _ := zpow_add₀ (by norm_num) _ _
  have := lt_of_mul_lt_mul_right hsize (by positivity)
  exact_mod_cast this

end Decimal

end CohortAnalytics
