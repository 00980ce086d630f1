import CohortAnalytics.Proofs.Json.Readability
import CohortAnalytics.Proofs.Number.Faithful
import CohortAnalytics.Proofs.Number.Negation
import Mathlib

/-!
The double of an integer is whole. It is the integer itself where 53 bits are enough, and it is what
the digits of the integer are read as. From half a unit of the last place above the greatest double on
there is none: the half itself rounds to infinity, for the greatest mantissa is odd.
-/

namespace CohortAnalytics

namespace Binary

theorem nearest_le (num : ℕ) {den : ℕ} (hden : 0 < den) :
    (nearest num den : ℚ) ≤ (num : ℚ) / den + 1 / 2 := by
  have hpos : (0 : ℚ) < den := by exact_mod_cast hden
  have hsum := Nat.div_add_mod num den
  have hnext := Nat.mul_add den (num / den) 1
  have hle : 2 * (den * nearest num den) ≤ 2 * num + den := by
    unfold nearest
    dsimp only
    split_ifs <;> omega
  have hle' : (2 : ℚ) * (den * nearest num den) ≤ 2 * num + den := by exact_mod_cast hle
  rw [← sub_le_iff_le_add, le_div_iff₀ hpos]
  linarith

/-- The least number that rounds beyond the finite range. -/
def overflowBound : ℕ := (2 ^ 54 - 1) * 2 ^ 970

theorem overflowBound_cast : (overflowBound : ℚ) = (2 ^ 53 - 1 / 2) * 2 ^ (971 : ℤ) := by
  have hnext : (2 : ℚ) ^ (971 : ℤ) = 2 ^ 970 * 2 := zpow_add_one₀ (by norm_num) (970 : ℕ)
  rw [hnext, overflowBound, Nat.cast_mul, Nat.cast_pow, Nat.cast_ofNat]
  generalize (2 : ℚ) ^ 970 = unit
  norm_num
  ring

theorem overflowBound_pos : 0 < overflowBound := by
  unfold overflowBound
  positivity

theorem overflowBound_lt : (overflowBound : ℚ) < 2 ^ (1024 : ℤ) := by
  rw [overflowBound_cast, show (1024 : ℤ) = 53 + 971 by norm_num, zpow_add₀ (by norm_num)]
  gcongr
  norm_num

theorem lt_overflowBound : (2 : ℚ) ^ (1023 : ℤ) < overflowBound := by
  rw [overflowBound_cast, show (1023 : ℤ) = 52 + 971 by norm_num, zpow_add₀ (by norm_num)]
  gcongr
  norm_num

theorem infinityBits_le_quotientBits_iff {num den : ℕ} (hnum : 0 < num) (hden : 0 < den) :
    infinityBits ≤ quotientBits num den ↔ (overflowBound : ℚ) ≤ (num : ℚ) / den := by
  obtain ⟨t, hcell, hbits⟩ := quotient_cell_nearest hnum hden
  rcases lt_trichotomy t 971 with hlt | rfl | hgt
  · -- below the last exponent all is in range
    have hdouble := carried_isDouble hcell (by omega) false
    have hpattern := hdouble.pattern_lt
    rw [carried_pattern hcell, ← hbits] at hpattern
    have hsmall : (num : ℚ) / den ≤ 2 ^ (1023 : ℤ) :=
      hcell.small.trans (zpow_le_zpow_right₀ (by norm_num) (by omega))
    constructor
    · intro h
      omega
    · intro h
      exact absurd (h.trans hsmall) (not_le.mpr lt_overflowBound)
  · -- at the last exponent the mantissa decides
    have hle := hcell.mantissa_le
    have hsmall := hcell.small
    have hpos : 0 < den * 2 ^ (971 : ℤ).toNat := by positivity
    rw [add_comm, zpow_add₀ (by norm_num)] at hsmall
    rw [← div_le_iff₀ (by positivity), ← scaled_quotient] at hsmall
    rw [overflowBound_cast, ← le_div_iff₀ (by positivity), ← scaled_quotient]
    generalize num * 2 ^ (-971 : ℤ).toNat = a at *
    generalize den * 2 ^ (971 : ℤ).toNat = b at *
    have hcarried : infinityBits ≤ quotientBits num den ↔ nearest a b = 2 ^ 53 := by
      rw [hbits, infinityBits]
      omega
    rw [hcarried]
    constructor
    · intro h
      have hhalf := nearest_le a hpos
      rw [h] at hhalf
      norm_num at hhalf ⊢
      linarith
    · intro h
      apply nearest_eq hpos
      · norm_num at h ⊢
        linarith
      · norm_num at hsmall ⊢
        linarith
      · intro hodd
        norm_num at hodd
  · have hfull := hcell.mantissa_full.resolve_right (by omega)
    have hlarge : (2 : ℚ) ^ (1024 : ℤ) ≤ (num : ℚ) / den :=
      (zpow_le_zpow_right₀ (by norm_num) (by omega)).trans (hcell.full.resolve_left (by omega))
    constructor
    · intro _
      exact overflowBound_lt.le.trans hlarge
    · intro _
      rw [hbits, infinityBits]
      omega

theorem ofInt?_eq_none_iff {n : ℤ} : ofInt? n = none ↔ overflowBound ≤ n.natAbs := by
  rw [ofInt?, ofRatio?]
  rcases Nat.eq_zero_or_pos n.natAbs with hzero | hpos
  · simp [hzero, overflowBound_pos.ne']
  · have hrange := infinityBits_le_quotientBits_iff hpos one_pos
    rw [Nat.cast_one, div_one, Nat.cast_le] at hrange
    rw [← hrange]
    simp [hpos.ne']

end Binary

/-- Integers with no more than 53 bits from the first to the last that is set. -/
def FitsDouble (n : ℤ) : Prop := ∃ (k : ℤ) (j : ℕ), |k| ≤ 2 ^ 53 ∧ n = k * 2 ^ j

theorem fitsDouble_of_natAbs_le {n : ℤ} (h : n.natAbs ≤ 2 ^ 53) : FitsDouble n :=
  ⟨n, 0, by rw [Int.abs_eq_natAbs]; exact_mod_cast h, by simp⟩

theorem fitsDouble_natAbs {n : ℤ} : FitsDouble n.natAbs ↔ FitsDouble n := by
  have hneg {n : ℤ} (h : FitsDouble n) : FitsDouble (-n) := by
    obtain ⟨k, j, hk, rfl⟩ := h
    exact ⟨-k, j, by rwa [abs_neg], by ring⟩
  rcases Int.natAbs_eq n with h | h
  · rw [← h]
  · constructor
    · intro hn
      rw [h]
      exact hneg hn
    · intro hn
      rw [h] at hn
      simpa using hneg hn

namespace Cell

variable {v : ℚ} {t : ℤ} {r n : ℕ}

theorem isDouble (h : Cell v t r) (hfits : (t + 1074).toNat * 2 ^ 52 + r < Binary.infinityBits)
    (negative : Bool) : (Binary.carried negative r t).IsDouble := by
  have hge := h.exponent_ge
  have hfull := h.mantissa_full
  rw [Binary.infinityBits] at hfits
  rw [Binary.carried]
  split_ifs with hlt
  · exact ⟨hlt, hge, by dsimp only; omega, hfull⟩
  · exact ⟨by norm_num, by dsimp only; omega, by dsimp only; omega, .inl (le_refl _)⟩

theorem eq_of_multiple {k : ℤ} (h : Cell v t r) (hv : v = k * 2 ^ t) : (r : ℚ) * 2 ^ t = v := by
  have hle : (r : ℤ) ≤ k := h.below k hv.le
  have hge : k ≤ r := h.above k hv.ge
  rw [hv, ← Int.cast_natCast, le_antisymm hle hge]

/-- Nothing of a whole number is below the unit. -/
theorem eq_of_neg (h : Cell n t r) (ht : t ≤ 0) : (r : ℚ) * 2 ^ t = n := by
  obtain ⟨k, hk⟩ := multiple_of_le n ht
  rw [zpow_zero, mul_one] at hk
  exact h.eq_of_multiple (by exact_mod_cast hk)

theorem whole (h : Cell n t r) : ∃ m : ℕ, (r : ℚ) * 2 ^ t = m := by
  rcases le_total t 0 with ht | ht
  · exact ⟨n, h.eq_of_neg ht⟩
  · obtain ⟨j, rfl⟩ := Int.eq_ofNat_of_zero_le ht
    exact ⟨r * 2 ^ j, by push_cast; rfl⟩

theorem pos (h : Cell n t r) (hn : 0 < n) : 0 < (r : ℚ) * 2 ^ t := by
  rcases h.mantissa_full with hr | ht
  · have : 0 < r := by omega
    positivity
  · rw [h.eq_of_neg (by omega)]
    exact_mod_cast hn

theorem eq_iff_fitsDouble (h : Cell n t r) : (r : ℚ) * 2 ^ t = n ↔ FitsDouble n := by
  constructor
  · intro heq
    have hle := h.mantissa_le
    rcases le_total t 0 with ht | ht
    · have hsmall : (n : ℚ) ≤ 2 ^ (53 : ℤ) :=
        h.small.trans (zpow_le_zpow_right₀ (by norm_num) (by omega))
      exact fitsDouble_of_natAbs_le (by exact_mod_cast hsmall)
    · obtain ⟨j, rfl⟩ := Int.eq_ofNat_of_zero_le ht
      refine ⟨r, j, by rw [Nat.abs_cast]; exact_mod_cast hle, ?_⟩
      exact_mod_cast heq.symm
  · rintro ⟨k, j, hk, hn⟩
    have hn' : (n : ℚ) = k * 2 ^ (j : ℤ) := by exact_mod_cast hn
    rcases multiple_or_small hk (show -1074 ≤ (j : ℤ) by omega) t with ⟨m, hm⟩ | ⟨ht, hsmall⟩
    · exact h.eq_of_multiple (hn'.trans hm)
    · -- the least number that the cell may hold
      rw [← hn', abs_of_nonneg (Nat.cast_nonneg n)] at hsmall
      have hleast := le_antisymm hsmall (h.full.resolve_left ht)
      rw [show t + 52 = t + (52 : ℕ) from rfl, two_zpow_add] at hleast
      exact h.eq_of_multiple hleast

end Cell

namespace Binary

theorem wholeFloat?_of_exact {x : Float} {b : Binary} {m : ℤ} (hx : ofFloat? x = some b)
    (hexact : b.exact = m) : wholeFloat? x = some m := by
  have hden : b.denominator ≠ 0 := b.denominator_pos.ne'
  have hsigned : b.signed = m * b.denominator := by
    rw [exact, div_eq_iff (by exact_mod_cast hden)] at hexact
    exact_mod_cast hexact
  simp only [wholeFloat?, hx, hsigned, Int.mul_emod_left, if_true]
  rw [Int.mul_ediv_cancel _ (by exact_mod_cast hden)]

theorem ofInt?_eq_some {n : ℤ} {x : Float} (h : ofInt? n = some x) :
    x = ofQuotient (decide (n < 0)) n.natAbs 1 ∧
      (0 < n.natAbs → quotientBits n.natAbs 1 < infinityBits) := by
  rw [ofInt?, ofRatio?] at h
  split_ifs at h with hrange
  refine ⟨?_, fun hpos => ?_⟩
  · rw [← Option.some.inj h]
    congr 1
    by_cases hn : n = 0 <;> simp [hn]
  · exact not_le.mp fun hle => hrange ⟨hpos.ne', hle⟩

theorem rounds_magnitudeValue (b : Binary) : b.Rounds b.magnitudeValue := by
  have hunit : b.magnitudeValue / 2 ^ b.exponent = b.mantissa := by
    rw [magnitudeValue, mul_div_cancel_right₀ _ (by positivity)]
  have hlower : b.lower ≤ 4 * b.mantissa := Nat.sub_le _ _
  have hupper := upper_cast b
  constructor
  · rw [hunit]
    exact_mod_cast hlower
  · rw [hunit]
    linarith
  · intro hodd
    have hlow := lower_add_one_le (show 0 < b.mantissa by omega)
    rw [hunit]
    constructor <;> linarith

theorem natAbs_of_exact {b : Binary} {m : ℤ} (h : b.exact = m) :
    (m.natAbs : ℚ) = b.magnitudeValue := by
  rw [← Int.cast_natCast, Int.natCast_natAbs, Int.cast_abs, ← h, b.abs_exact]

theorem negative_of_exact {b : Binary} {m : ℤ} (h : b.exact = m) (hne : m ≠ 0) :
    decide (m < 0) = b.negative := by
  have hpos : 0 < b.magnitudeValue := by
    rw [← natAbs_of_exact h]
    exact_mod_cast Int.natAbs_pos.mpr hne
  have hcast : (m : ℚ) < 0 ↔ m < 0 := Int.cast_lt_zero
  rw [exact_eq] at h
  cases hnegative : b.negative with
  | false =>
    rw [hnegative, if_neg Bool.false_ne_true] at h
    rw [decide_eq_false_iff_not, ← hcast]
    linarith
  | true =>
    rw [hnegative, if_pos rfl] at h
    rw [decide_eq_true_iff, ← hcast]
    linarith

/-- The double of a whole number that is a double. There are two zeros, and one of them is meant. -/
theorem ofInt?_of_exact {x : Float} {b : Binary} {m : ℤ} (hx : ofFloat? x = some b)
    (hexact : b.exact = m) (hzero : m = 0 → b.negative = false) : ofInt? m = some x := by
  have hvalue : (m.natAbs : ℚ) / (1 : ℕ) = b.magnitudeValue := by
    rw [Nat.cast_one, div_one, natAbs_of_exact hexact]
  rcases eq_or_ne m 0 with rfl | hne
  · have hmantissa : b.mantissa = 0 := by
      by_contra hm
      have hpos := magnitudeValue_pos (Nat.pos_of_ne_zero hm)
      rw [← hvalue] at hpos
      simp at hpos
    have hquotient := ofQuotient_zero hx hmantissa
    rw [hzero rfl] at hquotient
    exact congrArg some hquotient
  · have habs : 0 < m.natAbs := Int.natAbs_pos.mpr hne
    have hround : b.Rounds ((m.natAbs : ℚ) / (1 : ℕ)) := hvalue ▸ b.rounds_magnitudeValue
    have hbits := quotientBits_eq (isDouble_of_ofFloat? hx) habs one_pos hround
    have hlt := (isDouble_of_ofFloat? hx).pattern_lt
    have hsign : ((decide (m < 0) != decide ((1 : ℤ) < 0)) && m != 0) = b.negative := by
      simp [negative_of_exact hexact hne, hne]
    rw [ofInt?, ofRatio?, Int.natAbs_one, hsign, if_neg (by rw [hbits]; omega)]
    exact congrArg some (ofQuotient_eq hx habs one_pos hround)

theorem exists_cell {n : ℤ} {x : Float} (h : ofInt? n = some x) (hpos : 0 < n.natAbs) :
    ∃ t r, Cell n.natAbs t r ∧ ofFloat? x = some (carried (decide (n < 0)) r t) := by
  obtain ⟨hquotient, hfits⟩ := ofInt?_eq_some h
  obtain ⟨t, r, hcell, hbits⟩ := quotient_cell hpos one_pos
  have hdouble := hcell.isDouble (hbits ▸ hfits hpos) (decide (n < 0))
  have hx := ofFloat?_ofQuotient hpos hcell hbits hdouble
  rw [Nat.cast_one, div_one] at hcell
  exact ⟨t, r, hcell, hquotient ▸ hx⟩

theorem ofInt?_nearby {n : ℤ} {x : Float} (h : ofInt? n = some x) : Nearby n x := by
  rcases Nat.eq_zero_or_pos n.natAbs with hzero | hpos
  · obtain rfl := Int.natAbs_eq_zero.mp hzero
    have hx : x = 0 := by
      rw [(ofInt?_eq_some h).1]
      decide
    subst hx
    have hexact := nearby_exact ofFloat?_zero
    rwa [exact_zero rfl] at hexact
  · obtain ⟨t, r, hcell, hx⟩ := exists_cell h hpos
    have hvalue : (n : ℚ) = if decide (n < 0) then -(n.natAbs : ℚ) else n.natAbs := by
      by_cases hn : n < 0
      · have habs : n = -(n.natAbs : ℤ) := by omega
        rw [decide_eq_true hn, if_pos rfl, ← Int.cast_natCast, ← Int.cast_neg, ← habs]
      · have habs : n = n.natAbs := by omega
        rw [decide_eq_false hn, if_neg Bool.false_ne_true, ← Int.cast_natCast, ← habs]
    rw [hvalue]
    exact hcell.nearby_of_double hx

/-- The double of an integer is whole and its own double, and no digit is lost exactly if 53 bits are
enough. -/
theorem exists_whole {n : ℤ} {x : Float} (h : ofInt? n = some x) :
    ∃ m, wholeFloat? x = some m ∧ ofInt? m = some x ∧ (m = n ↔ FitsDouble n) := by
  rcases Nat.eq_zero_or_pos n.natAbs with hzero | hpos
  · -- zero has no place among the cells
    obtain rfl := Int.natAbs_eq_zero.mp hzero
    have hx : x = 0 := by
      rw [(ofInt?_eq_some h).1]
      decide
    subst hx
    exact ⟨0, by decide +kernel, h, iff_of_true rfl (fitsDouble_of_natAbs_le (by norm_num))⟩
  · obtain ⟨t, r, hcell, hx⟩ := exists_cell h hpos
    obtain ⟨m, hm⟩ := hcell.whole
    have hiff := hcell.eq_iff_fitsDouble
    rw [fitsDouble_natAbs, hm, Nat.cast_inj] at hiff
    have hexact : (carried (decide (n < 0)) r t).exact = ((if n < 0 then -m else m : ℤ) : ℚ) := by
      rw [carried_exact hcell, hm]
      by_cases hn : n < 0 <;> simp [hn]
    have hpositive : 0 < m := by
      exact_mod_cast hm ▸ hcell.pos (by exact_mod_cast hpos)
    refine ⟨_, wholeFloat?_of_exact hx hexact, ofInt?_of_exact hx hexact fun hm0 => ?_, ?_⟩
    · split_ifs at hm0 <;> omega
    · rw [← hiff]
      split_ifs <;> omega

end Binary

namespace Reading

theorem unsigned?_digits {ds : List Char} (hds : ∀ c ∈ ds, c.isDigit) (hne : ds ≠ [])
    (negative : Bool) :
    unsigned? negative ds = some (Binary.ofDecimal negative (Nat.ofDigitChars 10 ds 0) 0) := by
  have hread := digitsFrom_append hds endsDigits_nil false
  rw [List.append_nil] at hread
  unfold unsigned?
  rw [digits, hread]
  simp [hne, exponent?, value_map]

end Reading

theorem Binary.ofDecimal_whole (negative : Bool) {k j : ℕ} (hj : j ≤ 1024) (hk : k < 2 ^ j) :
    ofDecimal negative k 0 = ofQuotient negative k 1 := by
  rcases Nat.eq_zero_or_pos k with rfl | hpos
  · rfl
  · rw [← Nat.log2_lt hpos.ne'] at hk
    unfold ofDecimal
    dsimp only
    rw [if_neg (by omega), if_neg (by omega)]
    simp

theorem readFloat?_intText {n : ℤ} {x : Float} (h : Binary.ofInt? n = some x) :
    readFloat? (toString n) = some x := by
  have hrange : n.natAbs < 2 ^ 1024 := by
    have hlt : n.natAbs < Binary.overflowBound := by
      by_contra hge
      rw [Binary.ofInt?_eq_none_iff.mpr (not_lt.mp hge)] at h
      cases h
    have hbound := Binary.overflowBound_lt
    exact hlt.trans (by exact_mod_cast hbound)
  have hdigits : ∀ c ∈ Nat.toDigits 10 n.natAbs, c.isDigit := fun c hc =>
    Nat.isDigit_of_mem_toDigits (by omega) (by omega) hc
  obtain ⟨c, rest, hcons⟩ := List.exists_cons_of_ne_nil (Nat.toDigits_ne_nil (n := n.natAbs) (b := 10))
  have htext : toString n =
      String.ofList ((if decide (n < 0) then ['-'] else []) ++ Nat.toDigits 10 n.natAbs) := by
    rw [← String.toList_inj, intText_toList, String.toList_ofList]
    simp only [decide_eq_true_eq]
  rw [htext, hcons, readFloat?_signed (hdigits c (by simp [hcons]))]
  · rw [← hcons, Reading.unsigned?_digits hdigits Nat.toDigits_ne_nil, Nat.ofDigitChars_ten_toDigits,
      Binary.ofDecimal_whole _ le_rfl hrange, (Binary.ofInt?_eq_some h).1]
  · intro x hx
    simp [isNumeral, hdigits x (hcons ▸ hx)]

end CohortAnalytics
