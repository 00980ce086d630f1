import CohortAnalytics.Proofs.Number.Faithful

/-!
Sums, differences, products and quotients of doubles: each lies between the numbers of the grid
around the exact result.
-/

namespace CohortAnalytics

open Float.Model Float.Model.UnpackedFloat

theorem isNaN_of_ofFloat? {x : Float} {b : Binary} (h : Binary.ofFloat? x = some b) :
    x.isNaN = false := by
  change x.toModel.unpack.isNaN = false
  rw [Binary.unpack_of_ofFloat? h, Binary.unpacked]
  split_ifs <;> rfl

/-- On whichever side of a number of the grid the exact number lies, the double does too, and it may
be infinite. -/
structure Nearby (v : ℚ) (x : Float) : Prop where
  isNaN : x.isNaN = false
  above : ∀ q : ℚ, OnGrid q → q ≤ v → ((q : WithTop ℚ) : WithBot (WithTop ℚ)) ≤ Number.position (.float x)
  below : ∀ q : ℚ, OnGrid q → v ≤ q → Number.position (.float x) ≤ ((q : WithTop ℚ) : WithBot (WithTop ℚ))

theorem Nearby.faithful {v : ℚ} {x : Float} (h : Nearby v x) : Faithful v x := by
  intro lo hi hlo hhi hlow hhigh
  have habove := h.above lo hlo hlow
  have hbelow := h.below hi hhi hhigh
  cases hx : Binary.ofFloat? x with
  | some b =>
    rw [Number.position_float hx] at habove hbelow
    exact ⟨b, hx, by exact_mod_cast habove, by exact_mod_cast hbelow⟩
  | none =>
    simp only [Number.position, hx] at habove hbelow
    split_ifs at habove hbelow
    · exact absurd habove (not_le.mpr (WithBot.bot_lt_coe _))
    · exact absurd hbelow (not_le.mpr (WithBot.coe_lt_coe.mpr (WithTop.coe_lt_top _)))

/-- What a mantissa with its two further bits tells of a number: that it is the mantissa, or that
it lies strictly above it and below the next one. -/
def Tells (m : ExtendedMantissa) (x : ℚ) : Prop :=
  m.roundBit = false ∧ m.stickyBit = false ∧ x = m.mantissa ∨
    (m.roundBit = true ∨ m.stickyBit = true) ∧ m.mantissa < x ∧ x < m.mantissa + 1

namespace Tells

variable {m : ExtendedMantissa} {x : ℚ}

theorem shiftRightOne (h : Tells m x) : Tells m.shiftRightOne (x / 2) := by
  obtain ⟨mantissa, roundBit, stickyBit⟩ := m
  have hsplit : (mantissa : ℚ) = 2 * (mantissa / 2 : ℕ) + (mantissa % 2 : ℕ) := by
    exact_mod_cast (Nat.div_add_mod mantissa 2).symm
  have hrest : mantissa % 2 = 0 ∨ mantissa % 2 = 1 := by omega
  simp only [Tells, ExtendedMantissa.shiftRightOne] at h ⊢
  rcases h with ⟨rfl, rfl, rfl⟩ | ⟨hbits, hlow, hhigh⟩ <;> rcases hrest with hrest | hrest <;>
    rw [hrest] at hsplit ⊢
  · left
    refine ⟨rfl, rfl, ?_⟩
    rw [hsplit]
    ring
  · right
    refine ⟨.inl rfl, ?_, ?_⟩ <;> rw [hsplit] <;> push_cast <;> linarith
  · right
    refine ⟨.inr (by simpa using hbits), ?_, ?_⟩ <;> push_cast at hsplit <;> linarith
  · right
    refine ⟨.inl rfl, ?_, ?_⟩ <;> push_cast at hsplit <;> linarith

theorem shiftRight (h : Tells m x) (n : ℕ) : Tells (m >>> n) (x / 2 ^ n) := by
  induction n with
  | zero => simpa [HShiftRight.hShiftRight, Nat.repeat] using h
  | succ n ih =>
    rw [pow_succ, ← div_div]
    exact ih.shiftRightOne

theorem near (h : Tells m x) : Near x m.roundedMantissa := by
  obtain ⟨mantissa, roundBit, stickyBit⟩ := m
  rcases h with ⟨rfl, rfl, rfl⟩ | ⟨hbits, hlow, hhigh⟩
  · constructor <;> intro n hn <;> exact_mod_cast hn
  · have hrounded : mantissa ≤ ExtendedMantissa.roundedMantissa ⟨mantissa, roundBit, stickyBit⟩ ∧
        ExtendedMantissa.roundedMantissa ⟨mantissa, roundBit, stickyBit⟩ ≤ mantissa + 1 := by
      have := Nat.mod_lt mantissa (show 0 < 2 by omega)
      cases roundBit <;> cases stickyBit <;>
        simp only [ExtendedMantissa.roundedMantissa, ExtendedMantissa.accuracy,
          Accuracy.roundToNearestEven] <;> omega
    constructor
    · intro n hn
      have : n < mantissa + 1 := by exact_mod_cast hn.trans_lt hhigh
      omega
    · intro n hn
      have : (mantissa : ℤ) < n := by exact_mod_cast hlow.trans_le hn
      omega

end Tells

theorem target_eq (k : ℤ) : Format.binary64.targetExponent k = max (k - 53) (-1074) := rfl

theorem shiftToTargetExponent_eq {m : ℕ} {e : ℤ} (accuracy : Accuracy) {t : ℤ}
    (ht : max (m.log2 + 1 + e - 53) (-1074) = t) (hle : e ≤ t) :
    shiftToTargetExponent Format.binary64 m e accuracy =
      (ExtendedMantissa.ofMantissaAndAccuracy m accuracy >>> (t - e).toNat, t) := by
  have htarget : Format.binary64.targetExponent (totalExponent m e) = t := ht
  simp only [shiftToTargetExponent, shiftToExponent, htarget]
  congr 1
  omega

namespace Binary

/-- The second shift of a rounding only moves a mantissa that has become a power of two. -/
theorem shift_carried {v : ℚ} {t : ℤ} {r : ℕ} (h : Cell v t r) (negative : Bool) :
    (shiftToTargetExponent Format.binary64 r t .exact).1.mantissa = (carried negative r t).mantissa ∧
      (shiftToTargetExponent Format.binary64 r t .exact).2 = (carried negative r t).exponent := by
  have hge := h.exponent_ge
  by_cases hlt : r < 2 ^ 53
  · have hlog : r.log2 < 53 := by
      rcases Nat.eq_zero_or_pos r with rfl | hpos
      · decide
      · exact (Nat.log2_lt hpos.ne').mpr hlt
    simp only [carried, if_pos hlt, shiftToTargetExponent, shiftToExponent, target_eq,
      totalExponent]
    rw [show (max ((r.log2 : ℤ) + 1 + t - 53) (-1074) - t).toNat = 0 by omega]
    exact ⟨rfl, by simp⟩
  · obtain rfl : r = 2 ^ 53 := le_antisymm h.mantissa_le (by omega)
    rw [shiftToTargetExponent_eq (t := t + 1) _ (by rw [Nat.log2_two_pow]; omega) (by omega),
      show (t + 1 - t).toNat = 1 by omega]
    exact ⟨rfl, rfl⟩

theorem unpacked_carried {t : ℤ} {r : ℕ} (s : Sign) {m : ℕ} {e : ℤ}
    (hm : m = (carried (s == .negative) r t).mantissa)
    (he : e = (carried (s == .negative) r t).exponent) :
    (if h : m = 0 then UnpackedFloat.zero s else .finite s m e (Nat.pos_of_ne_zero h)) =
      (carried (s == .negative) r t).unpacked := by
  have hsign : (carried (s == .negative) r t).sign = s := by
    rw [sign, carried_negative]
    cases s <;> rfl
  subst hm he
  rw [unpacked, hsign]
  by_cases hzero : (carried (s == .negative) r t).mantissa = 0
  · rw [dif_pos hzero, dif_neg (by omega)]
  · rw [dif_neg hzero, dif_pos (Nat.pos_of_ne_zero hzero)]

end Binary

/-- Rounding has to start with enough places, or at the least exponent. -/
theorem roundWithAccuracy_eq (s : Sign) {m : ℕ} {e : ℤ} {accuracy : Accuracy} {x : ℚ}
    (hstart : 2 ^ 52 ≤ m ∨ e ≤ -1074) (h : Tells (.ofMantissaAndAccuracy m accuracy) x) :
    ∃ t r, Cell (x * 2 ^ e) t r ∧ roundWithAccuracy Format.binary64 s m e accuracy =
      (Binary.carried (s == .negative) r t).unpacked := by
  obtain ⟨hlow, hhigh⟩ : (m : ℚ) ≤ x ∧ x < m + 1 := by
    have hmantissa : (ExtendedMantissa.ofMantissaAndAccuracy m accuracy).mantissa = m := by
      rcases accuracy with _ | (_ | _ | _) <;> rfl
    rw [Tells, hmantissa] at h
    rcases h with ⟨-, -, rfl⟩ | ⟨-, hlow, hhigh⟩
    · exact ⟨le_refl _, by linarith⟩
    · exact ⟨hlow.le, hhigh⟩
  obtain ⟨t, ht⟩ : ∃ t : ℤ, max (m.log2 + 1 + e - 53) (-1074) = t := ⟨_, rfl⟩
  have hlog : 2 ^ 52 ≤ m → 52 ≤ m.log2 := fun hfull => (Nat.le_log2 (by omega)).mpr hfull
  have hle : e ≤ t := by omega
  have hunit : (0 : ℚ) < 2 ^ e := by positivity
  have hscale : x / 2 ^ (t - e).toNat = x * 2 ^ e / 2 ^ t := by
    rw [← zpow_natCast, Int.toNat_of_nonneg (by omega), zpow_sub₀ (by norm_num)]
    field_simp
  have hcell : Cell (x * 2 ^ e) t
      (ExtendedMantissa.ofMantissaAndAccuracy m accuracy >>> (t - e).toNat).roundedMantissa := by
    refine ⟨by omega, ?_, ?_, ?_⟩
    · by_cases hleast : t = -1074
      · exact .inl hleast
      · right
        have hpos : m ≠ 0 := by
          rintro rfl
          norm_num at hstart ht
          omega
        have hbits : (2 : ℚ) ^ (m.log2 : ℤ) ≤ m := by
          exact_mod_cast Nat.log2_self_le hpos
        rw [show t + 52 = m.log2 + e by omega, zpow_add₀ (by norm_num)]
        gcongr
        exact hbits.trans hlow
    · have hbits : (m : ℚ) + 1 ≤ 2 ^ ((m.log2 : ℤ) + 1) := by
        exact_mod_cast Nat.lt_log2_self (n := m)
      calc x * 2 ^ e ≤ 2 ^ ((m.log2 : ℤ) + 1) * 2 ^ e := by
            gcongr
            exact hhigh.le.trans hbits
        _ ≤ 2 ^ (t + 53) := by
            rw [← zpow_add₀ (by norm_num)]
            exact zpow_le_zpow_right₀ (by norm_num) (by omega)
    · rw [← hscale]
      exact (h.shiftRight _).near
  refine ⟨t, _, hcell, ?_⟩
  obtain ⟨hm, he⟩ := Binary.shift_carried hcell (s == .negative)
  simp only [roundWithAccuracy, shiftToTargetExponent_eq accuracy ht hle]
  exact Binary.unpacked_carried s hm he

namespace Binary

theorem signBit_eq (b : Binary) :
    (if b.negative then 2 ^ 63 else 0) = b.sign.toBitVec.toNat * 2 ^ 63 := by
  obtain ⟨_ | _, _, _⟩ := b
  · exact (Nat.zero_mul _).symm
  · exact (Nat.one_mul _).symm

theorem ofFloat?_pack {b : Binary} (hb : b.IsDouble) :
    ofFloat? ⟨Float.Model.pack b.unpacked⟩ = some b := by
  apply ofFloat?_of_toBits hb
  change (UnpackedFloat.pack Format.binary64 b.unpacked).toNat = _
  obtain ⟨hlt, hge, hle, hfull⟩ := hb
  rw [unpacked, pattern, signBit_eq]
  by_cases hpos : 0 < b.mantissa
  · have hbiased : (b.exponent + Format.binary64.exponentBias +
        Format.binary64.mantissaBitsWithoutImplicit).toNat = (b.exponent + 1075).toNat := by
      change (b.exponent + 1023 + 52).toNat = _
      omega
    rw [dif_pos hpos, UnpackedFloat.pack, hbiased, if_neg (by change ¬2 ^ 11 ≤ _; omega)]
    by_cases hnormal : 2 ^ 52 ≤ b.mantissa
    · have hlog : b.mantissa.log2 = 52 := by
        rw [Nat.log2_eq_iff (by omega)]
        omega
      rw [if_pos (by rw [hlog]; rfl), packComponents_toNat, BitVec.toNat_ofNat, BitVec.toNat_ofNat]
      omega
    · have hlog : b.mantissa.log2 < 52 := (Nat.log2_lt (by omega)).mpr (by omega)
      rw [if_neg (by change ¬_ + 1 = 53; omega), packComponents_toNat, BitVec.toNat_ofNat,
        BitVec.toNat_ofNat]
      omega
  · have hzero : (UnpackedFloat.pack Format.binary64 (.zero b.sign)).toNat =
        b.sign.toBitVec.toNat * 2 ^ 63 + 0 * 2 ^ 52 + 0 := packComponents_toNat b.sign 0 0
    rw [dif_neg hpos, hzero]
    omega

theorem nearby_exact {x : Float} {b : Binary} (hx : ofFloat? x = some b) : Nearby b.exact x := by
  have hposition := Number.position_float hx
  refine ⟨isNaN_of_ofFloat? hx, ?_, ?_⟩
  · intro q _ hle
    rw [hposition]
    exact_mod_cast hle
  · intro q _ hle
    rw [hposition]
    exact_mod_cast hle

/-- Beyond the last exponent a packed number is infinite. -/
theorem unpack_pack_of_large {b : Binary} (hm : 0 < b.mantissa) (he : 971 < b.exponent) :
    (Float.Model.pack b.unpacked).unpack = .infinity b.sign := by
  have hlarge : 2 ^ Format.binary64.exponentBits ≤ (b.exponent + Format.binary64.exponentBias +
      Format.binary64.mantissaBitsWithoutImplicit).toNat + 1 := by
    change 2 ^ 11 ≤ (b.exponent + 1023 + 52).toNat + 1
    omega
  change UnpackedFloat.unpack Format.binary64 (UnpackedFloat.pack Format.binary64 b.unpacked) = _
  rw [unpacked, dif_pos hm, UnpackedFloat.pack, if_pos hlarge]
  cases b.sign <;> rfl

theorem unpacked_of_pos {b : Binary} (h : 0 < b.mantissa) :
    b.unpacked = .finite b.sign b.mantissa b.exponent h := by
  rw [unpacked, dif_pos h]

theorem unpacked_of_zero {b : Binary} (h : ¬0 < b.mantissa) : b.unpacked = .zero b.sign := by
  rw [unpacked, dif_neg h]

end Binary

def signFactor (s : Sign) : ℚ := if s == .negative then -1 else 1

theorem signFactor_mul (s t : Sign) : signFactor (s * t) = signFactor s * signFactor t := by
  cases s <;> cases t <;> decide +kernel

theorem signFactor_div (s t : Sign) : signFactor (s / t) = signFactor s / signFactor t := by
  cases s <;> cases t <;> decide +kernel

theorem Binary.exact_of_sign (b : Binary) :
    b.exact = signFactor b.sign * (b.mantissa * 2 ^ b.exponent) := by
  rw [exact_eq, magnitudeValue, sign, signFactor]
  split_ifs <;> simp_all

theorem position_of_infinity {x : Float} {s : Sign} (h : x.toModel.unpack = .infinity s) :
    Number.position (.float x) = if s == .negative then ⊥ else ⊤ := by
  have hnone : Binary.ofFloat? x = none := by
    cases hx : Binary.ofFloat? x with
    | none => rfl
    | some b =>
      rw [Binary.unpack_of_ofFloat? hx, Binary.unpacked] at h
      split_ifs at h
  have hsign : x < 0 ↔ (s == .negative) = true := by
    rw [lt_iff_unpack, h, show (0 : Float).toModel.unpack = .zero .positive from rfl]
    cases s
    · exact iff_of_true rfl rfl
    · exact iff_of_false (by decide) (by decide)
  simp only [Number.position, hnone, hsign]

namespace Cell

variable {v q : ℚ} {t : ℤ} {r : ℕ} {x : Float}

theorem nearby_of_double (h : Cell v t r) {negative : Bool}
    (hx : Binary.ofFloat? x = some (Binary.carried negative r t)) :
    Nearby (if negative then -v else v) x := by
  have hposition := Number.position_float hx
  rw [Binary.carried_exact h] at hposition
  refine ⟨isNaN_of_ofFloat? hx, ?_, ?_⟩ <;> intro q hq hle <;> rw [hposition] <;> cases negative
  · exact_mod_cast h.le_of_onGrid hq hle
  · have := h.ge_of_onGrid hq.neg (le_neg.mp hle)
    exact_mod_cast le_neg.mp this
  · exact_mod_cast h.ge_of_onGrid hq hle
  · have := h.le_of_onGrid hq.neg (neg_le.mp hle)
    exact_mod_cast neg_le.mp this

theorem nearby_of_infinite (h : Cell v t r) (ht : 970 < t) {negative : Bool}
    (hx : x.toModel.unpack = .infinity (Binary.carried negative r t).sign) :
    Nearby (if negative then -v else v) x := by
  have hposition := position_of_infinity hx
  rw [Binary.sign, Binary.carried_negative] at hposition
  have hnan : x.isNaN = false := by
    change x.toModel.unpack.isNaN = false
    rw [hx]
    rfl
  refine ⟨hnan, ?_, ?_⟩ <;> intro q hq hle <;> rw [hposition] <;> cases negative
  · exact le_top
  · exact absurd (h.exponent_le hq.neg (le_neg.mp hle)) (not_le.mpr ht)
  · exact absurd (h.exponent_le hq hle) (not_le.mpr ht)
  · exact bot_le

/-- Only past the last exponent is a rounded number infinite, and there it is past the grid. -/
theorem nearby (h : Cell v t r) (negative : Bool) :
    Nearby (if negative then -v else v) ⟨Float.Model.pack (Binary.carried negative r t).unpacked⟩ := by
  by_cases hfinite : t ≤ 970 ∨ t = 971 ∧ r < 2 ^ 53
  · have hdouble : (Binary.carried negative r t).IsDouble := by
      rcases hfinite with ht | ⟨ht, hr⟩
      · exact Binary.carried_isDouble h ht negative
      · rw [Binary.carried, if_pos hr]
        exact ⟨hr, h.exponent_ge, ht.le, h.mantissa_full⟩
    exact h.nearby_of_double (Binary.ofFloat?_pack hdouble)
  · have hfull := h.mantissa_full
    refine h.nearby_of_infinite (by omega) ?_
    apply Binary.unpack_pack_of_large <;> rw [Binary.carried] <;> split_ifs <;> dsimp only <;> omega

end Cell

theorem nearby_zero (s : Sign) : Nearby 0 ⟨Float.Model.pack (.zero s)⟩ := by
  have hzero := Binary.nearby_exact (Binary.ofFloat?_pack (Binary.isDouble_zero (s == .negative)))
  rw [Binary.unpacked_of_zero (Nat.lt_irrefl 0), Binary.exact_zero rfl] at hzero
  cases s <;> exact hzero

theorem nearby_round (s : Sign) {m : ℕ} {e : ℤ} {accuracy : Accuracy} {x : ℚ}
    (hstart : 2 ^ 52 ≤ m ∨ e ≤ -1074) (h : Tells (.ofMantissaAndAccuracy m accuracy) x) :
    Nearby (signFactor s * (x * 2 ^ e))
      ⟨Float.Model.pack (roundWithAccuracy Format.binary64 s m e accuracy)⟩ := by
  obtain ⟨t, r, hcell, heq⟩ := roundWithAccuracy_eq s hstart h
  have hnearby := hcell.nearby (s == .negative)
  have hvalue : signFactor s * (x * 2 ^ e) =
      if (s == .negative) = true then -(x * 2 ^ e) else x * 2 ^ e := by
    rw [signFactor]
    split_ifs <;> ring
  rw [heq, hvalue]
  exact hnearby

theorem tells_exact (m : ℕ) : Tells (.ofMantissaAndAccuracy m .exact) m := .inl ⟨rfl, rfl, rfl⟩

theorem tells_inexact (m : ℕ) (o : Ordering) {x : ℚ} (hlow : m < x) (hhigh : x < m + 1) :
    Tells (.ofMantissaAndAccuracy m (.inexact o)) x := by
  right
  cases o
  · exact ⟨.inr rfl, hlow, hhigh⟩
  · exact ⟨.inl rfl, hlow, hhigh⟩
  · exact ⟨.inl rfl, hlow, hhigh⟩

theorem tells_fraction (num : ℕ) {den : ℕ} (hden : 0 < den) :
    Tells (.ofMantissaAndAccuracy (num / den) (accuracyOfFraction (num % den) den))
      ((num : ℚ) / den) := by
  have hpos : (0 : ℚ) < den := by exact_mod_cast hden
  have hsum : (num : ℚ) = den * (num / den : ℕ) + (num % den : ℕ) := by
    exact_mod_cast (Nat.div_add_mod num den).symm
  have hrest : ((num % den : ℕ) : ℚ) < den := by exact_mod_cast Nat.mod_lt num hden
  by_cases hzero : num % den = 0
  · have hvalue : (num : ℚ) / den = (num / den : ℕ) := by
      rw [div_eq_iff hpos.ne', mul_comm, hsum, hzero, Nat.cast_zero, add_zero]
    rw [accuracyOfFraction, if_pos hzero, hvalue]
    exact tells_exact _
  · have hsome : (0 : ℚ) < (num % den : ℕ) := by exact_mod_cast Nat.pos_of_ne_zero hzero
    rw [accuracyOfFraction, if_neg hzero]
    apply tells_inexact
    · rw [lt_div_iff₀ hpos]
      linarith
    · rw [div_lt_iff₀ hpos]
      linarith

namespace Binary

variable {x y : Float} {b d : Binary}

theorem mul_nearby (hx : ofFloat? x = some b) (hy : ofFloat? y = some d) :
    Nearby (b.exact * d.exact) (x * y) := by
  change Nearby _ ⟨Float.Model.pack (UnpackedFloat.mul Format.binary64 x.toModel.unpack
    y.toModel.unpack)⟩
  rw [unpack_of_ofFloat? hx, unpack_of_ofFloat? hy]
  by_cases hbm : 0 < b.mantissa <;> by_cases hdm : 0 < d.mantissa
  · have hstart : 2 ^ 52 ≤ b.mantissa * d.mantissa ∨ b.exponent + d.exponent ≤ -1074 := by
      rcases (isDouble_of_ofFloat? hx).full with hfull | hleast
      · exact .inl (hfull.trans (Nat.le_mul_of_pos_right _ hdm))
      rcases (isDouble_of_ofFloat? hy).full with hfull | hleast'
      · exact .inl (hfull.trans (Nat.le_mul_of_pos_left _ hbm))
      · exact .inr (by omega)
    have hvalue : b.exact * d.exact = signFactor (b.sign * d.sign) *
        ((b.mantissa * d.mantissa : ℕ) * 2 ^ (b.exponent + d.exponent)) := by
      rw [exact_of_sign, exact_of_sign, zpow_add₀ (by norm_num), signFactor_mul]
      push_cast
      ring
    rw [unpacked_of_pos hbm, unpacked_of_pos hdm, hvalue]
    exact nearby_round _ hstart (tells_exact _)
  · rw [unpacked_of_zero hdm, exact_zero (b := d) (by omega), mul_zero, unpacked_of_pos hbm]
    exact nearby_zero _
  · rw [unpacked_of_zero hbm, exact_zero (b := b) (by omega), zero_mul, unpacked_of_pos hdm]
    exact nearby_zero _
  · rw [unpacked_of_zero hbm, exact_zero (b := b) (by omega), zero_mul, unpacked_of_zero hdm]
    exact nearby_zero _

/-- The quotient of two mantissas is taken with enough places. -/
theorem divCore_start {m n : ℕ} (hm : 0 < m) (hn : 0 < n) (e f : ℤ) :
    2 ^ 52 ≤ (divCore Format.binary64 m e n f).1 ∨
      (divCore Format.binary64 m e n f).2.1 ≤ -1074 := by
  simp only [divCore, target_eq, totalExponent, Nat.shiftLeft_eq]
  obtain ⟨t, ht⟩ : ∃ t : ℤ, min (e - f)
      (max ((m.log2 : ℤ) + 1 + e - (n.log2 + 1 + f) - 53) (-1074)) = t := ⟨_, rfl⟩
  rw [ht]
  by_cases hleast : t ≤ -1074
  · exact .inr hleast
  · left
    have hplaces : n.log2 + 53 ≤ m.log2 + (e - f - t).toNat := by omega
    rw [Nat.le_div_iff_mul_le hn]
    calc 2 ^ 52 * n ≤ 2 ^ 52 * 2 ^ (n.log2 + 1) := by
          gcongr
          exact Nat.lt_log2_self.le
      _ = 2 ^ (n.log2 + 53) := by
          rw [← pow_add]
          congr 1
          omega
      _ ≤ 2 ^ (m.log2 + (e - f - t).toNat) := Nat.pow_le_pow_right (by omega) hplaces
      _ ≤ m * 2 ^ (e - f - t).toNat := by
          rw [pow_add]
          gcongr
          exact Nat.log2_self_le hm.ne'

theorem div_nearby (hx : ofFloat? x = some b) (hy : ofFloat? y = some d) (hne : d.exact ≠ 0) :
    Nearby (b.exact / d.exact) (x / y) := by
  have hdm : 0 < d.mantissa := Nat.pos_of_ne_zero fun h => hne (exact_zero h)
  change Nearby _ ⟨Float.Model.pack (UnpackedFloat.div Format.binary64 x.toModel.unpack
    y.toModel.unpack)⟩
  rw [unpack_of_ofFloat? hx, unpack_of_ofFloat? hy, unpacked_of_pos hdm]
  by_cases hbm : 0 < b.mantissa
  · have hstart := divCore_start hbm hdm b.exponent d.exponent
    rw [unpacked_of_pos hbm, UnpackedFloat.div]
    simp only [divCore] at hstart ⊢
    obtain ⟨t, ht⟩ : ∃ t : ℤ, min (b.exponent - d.exponent) (Format.binary64.targetExponent
        (totalExponent b.mantissa b.exponent - totalExponent d.mantissa d.exponent)) = t := ⟨_, rfl⟩
    rw [ht] at hstart ⊢
    have hvalue : b.exact / d.exact = signFactor (b.sign / d.sign) *
        (((b.mantissa <<< (b.exponent - d.exponent - t).toNat : ℕ) : ℚ) / d.mantissa * 2 ^ t) := by
      have hscale : (2 : ℚ) ^ b.exponent =
          2 ^ (b.exponent - d.exponent - t).toNat * 2 ^ t * 2 ^ d.exponent := by
        rw [← zpow_natCast, ← zpow_add₀ (by norm_num), ← zpow_add₀ (by norm_num)]
        congr 1
        omega
      rw [exact_of_sign, exact_of_sign, signFactor_div, hscale, Nat.shiftLeft_eq]
      push_cast
      field_simp
    rw [hvalue]
    exact nearby_round _ hstart (tells_fraction _ hdm)
  · rw [unpacked_of_zero hbm, exact_zero (b := b) (by omega), zero_div]
    exact nearby_zero _

end Binary

/-- The value of a signed mantissa at an exponent. -/
theorem nearby_normalize (n e : ℤ) :
    Nearby (n * 2 ^ e)
      ⟨Float.Model.pack (UnpackedFloat.normalize Format.binary64 n e .positive)⟩ := by
  -- a rounding gives the mantissa all its places first
  have hround (s : Sign) {m : ℕ} (hm : 0 < m) : Nearby (signFactor s * (m * 2 ^ e))
      ⟨Float.Model.pack (UnpackedFloat.round Format.binary64 s m e)⟩ := by
    obtain ⟨t, ht⟩ : ∃ t : ℤ, max ((m.log2 : ℤ) + 1 + e - 53) (-1074) = t := ⟨_, rfl⟩
    have hstart : 2 ^ 52 ≤ m * 2 ^ (e - t).toNat ∨ e - (e - t).toNat ≤ -1074 := by
      by_cases hleast : e - (e - t).toNat ≤ -1074
      · exact .inr hleast
      · left
        calc 2 ^ 52 ≤ 2 ^ (m.log2 + (e - t).toNat) :=
              Nat.pow_le_pow_right (by omega) (by omega)
          _ ≤ m * 2 ^ (e - t).toNat := by
              rw [pow_add]
              gcongr
              exact Nat.log2_self_le hm.ne'
    have hvalue : (m : ℚ) * 2 ^ e = (m * 2 ^ (e - t).toNat : ℕ) * 2 ^ (e - (e - t).toNat) := by
      push_cast
      rw [mul_assoc, ← zpow_natCast, ← zpow_add₀ (by norm_num)]
      congr 2
      omega
    have htarget : Format.binary64.targetExponent (totalExponent m e) = t := ht
    simp only [UnpackedFloat.round, htarget, decreaseExponent, Nat.shiftLeft_eq]
    rw [hvalue]
    exact nearby_round s hstart (tells_exact _)
  rw [UnpackedFloat.normalize]
  rcases lt_trichotomy n 0 with hneg | rfl | hpos
  · have hmantissa : (n : ℚ) = -((-n).toNat : ℕ) := by
      have : n = -((-n).toNat : ℤ) := by omega
      exact_mod_cast this
    rw [compare_lt_iff_lt.mpr hneg, hmantissa, neg_mul]
    simpa [signFactor] using hround .negative (m := (-n).toNat) (by omega)
  · rw [Int.cast_zero, zero_mul]
    exact nearby_zero .positive
  · have hmantissa : (n : ℚ) = (n.toNat : ℕ) := by
      have : n = (n.toNat : ℤ) := by omega
      exact_mod_cast this
    rw [compare_gt_iff_gt.mpr hpos, hmantissa]
    simpa [signFactor] using hround .positive (m := n.toNat) (by omega)

namespace Binary

variable {x y : Float} {b d : Binary}

theorem exact_decreased (b : Binary) {t : ℤ} (ht : t ≤ b.exponent) :
    b.exact = b.sign.apply (decreaseExponent b.mantissa b.exponent t).1 * 2 ^ t := by
  have hscale : (2 : ℚ) ^ b.exponent = 2 ^ (b.exponent - t).toNat * 2 ^ t := by
    rw [← zpow_natCast, ← zpow_add₀ (by norm_num)]
    congr 1
    omega
  rw [exact_of_sign, hscale, decreaseExponent, Nat.shiftLeft_eq]
  cases b.sign <;> simp [signFactor, Sign.apply, mul_assoc]

theorem nearby_unpacked (hb : b.IsDouble) : Nearby b.exact ⟨Float.Model.pack b.unpacked⟩ :=
  nearby_exact (ofFloat?_pack hb)

theorem add_unpacked (hb : b.IsDouble) (hd : d.IsDouble) : Nearby (b.exact + d.exact)
    ⟨Float.Model.pack (UnpackedFloat.add Format.binary64 b.unpacked d.unpacked)⟩ := by
  by_cases hbm : 0 < b.mantissa <;> by_cases hdm : 0 < d.mantissa
  · rw [unpacked_of_pos hbm, unpacked_of_pos hdm, exact_decreased b (min_le_left _ d.exponent),
      exact_decreased d (min_le_right b.exponent _), ← add_mul, ← Int.cast_add]
    exact nearby_normalize _ _
  · rw [exact_zero (b := d) (by omega), add_zero, unpacked_of_zero hdm, unpacked_of_pos hbm]
    have hnearby := nearby_unpacked hb
    rwa [unpacked_of_pos hbm] at hnearby
  · rw [exact_zero (b := b) (by omega), zero_add, unpacked_of_zero hbm, unpacked_of_pos hdm]
    have hnearby := nearby_unpacked hd
    rwa [unpacked_of_pos hdm] at hnearby
  · rw [exact_zero (b := b) (by omega), exact_zero (b := d) (by omega), add_zero,
      unpacked_of_zero hbm, unpacked_of_zero hdm, UnpackedFloat.add]
    split_ifs
    · exact nearby_zero _
    · exact nearby_zero _

theorem add_nearby (hx : ofFloat? x = some b) (hy : ofFloat? y = some d) :
    Nearby (b.exact + d.exact) (x + y) := by
  have hsum := add_unpacked (isDouble_of_ofFloat? hx) (isDouble_of_ofFloat? hy)
  rwa [← unpack_of_ofFloat? hx, ← unpack_of_ofFloat? hy] at hsum

/-- The number of the other sign. -/
def opposite (b : Binary) : Binary := { b with negative := !b.negative }

theorem exact_opposite (b : Binary) : b.opposite.exact = -b.exact := by
  rw [exact_eq, exact_eq, opposite, magnitudeValue, magnitudeValue]
  cases b.negative <;> simp

theorem unpacked_opposite (b : Binary) : b.opposite.unpacked = b.unpacked.neg := by
  obtain ⟨negative, mantissa, exponent⟩ := b
  rw [unpacked, unpacked, opposite]
  by_cases h : 0 < mantissa
  · rw [dif_pos h, dif_pos h]
    cases negative <;> rfl
  · rw [dif_neg h, dif_neg h]
    cases negative <;> rfl

theorem sub_eq_add (f g : UnpackedFloat) : UnpackedFloat.sub Format.binary64 f g =
    UnpackedFloat.add Format.binary64 f g.neg := by
  cases f with
  | finite s m e hm =>
    cases g with
    | finite t n k hn =>
      have hneg (j : ℤ) : (-t).apply j = -t.apply j := by
        cases t with
        | negative => exact (Int.neg_neg j).symm
        | positive => rfl
      simp only [UnpackedFloat.sub, UnpackedFloat.add, UnpackedFloat.neg, hneg, Int.sub_eq_add_neg]
    | _ => rfl
  | _ => cases g <;> rfl

theorem sub_nearby (hx : ofFloat? x = some b) (hy : ofFloat? y = some d) :
    Nearby (b.exact - d.exact) (x - y) := by
  have hd := isDouble_of_ofFloat? hy
  have hopposite : d.opposite.IsDouble := ⟨hd.mantissa_lt, hd.exponent_ge, hd.exponent_le, hd.full⟩
  have hsum := add_unpacked (isDouble_of_ofFloat? hx) hopposite
  rwa [exact_opposite, ← sub_eq_add_neg, unpacked_opposite, ← sub_eq_add,
    ← unpack_of_ofFloat? hx, ← unpack_of_ofFloat? hy] at hsum

theorem ofFloat?_abs (hx : ofFloat? x = some b) :
    ofFloat? x.abs = some { b with negative := false } := by
  have hb := isDouble_of_ofFloat? hx
  have habs : ({ b with negative := false } : Binary).unpacked = b.unpacked.abs := by
    obtain ⟨negative, mantissa, exponent⟩ := b
    rw [unpacked, unpacked]
    by_cases h : 0 < mantissa
    · rw [dif_pos h, dif_pos h]
      rfl
    · rw [dif_neg h, dif_neg h]
      rfl
  have hpacked := ofFloat?_pack (b := { b with negative := false })
    ⟨hb.mantissa_lt, hb.exponent_ge, hb.exponent_le, hb.full⟩
  rwa [habs, ← unpack_of_ofFloat? hx] at hpacked

end Binary

namespace Within

variable {x y : Float} {a b c d : ℚ}

theorem one : Within 1 1 1 := by decide +kernel

theorem two : Within 2 2 2 := by decide +kernel

theorem hundred : Within 100 100 100 := by decide +kernel

theorem mono (h : Within a b x) (hlow : c ≤ a) (hhigh : b ≤ d) : Within c d x := by
  obtain ⟨p, hp, hxl, hxh⟩ := h
  exact ⟨p, hp, hlow.trans hxl, hxh.trans hhigh⟩

theorem add (hx : Within a b x) (hy : Within c d y) {lo hi : ℚ} (hlo : OnGrid lo)
    (hhi : OnGrid hi) (hlow : lo ≤ a + c) (hhigh : b + d ≤ hi) : Within lo hi (x + y) := by
  obtain ⟨p, hp, hxl, hxh⟩ := hx
  obtain ⟨q, hq, hyl, hyh⟩ := hy
  exact (Binary.add_nearby hp hq).faithful _ _ hlo hhi (by linarith) (by linarith)

theorem sub (hx : Within a b x) (hy : Within c d y) {lo hi : ℚ} (hlo : OnGrid lo)
    (hhi : OnGrid hi) (hlow : lo ≤ a - d) (hhigh : b - c ≤ hi) : Within lo hi (x - y) := by
  obtain ⟨p, hp, hxl, hxh⟩ := hx
  obtain ⟨q, hq, hyl, hyh⟩ := hy
  exact (Binary.sub_nearby hp hq).faithful _ _ hlo hhi (by linarith) (by linarith)

theorem mul (hx : Within a b x) (hy : Within c d y) (ha : 0 ≤ a) (hc : 0 ≤ c) {lo hi : ℚ}
    (hlo : OnGrid lo) (hhi : OnGrid hi) (hlow : lo ≤ a * c) (hhigh : b * d ≤ hi) :
    Within lo hi (x * y) := by
  obtain ⟨p, hp, hxl, hxh⟩ := hx
  obtain ⟨q, hq, hyl, hyh⟩ := hy
  refine (Binary.mul_nearby hp hq).faithful _ _ hlo hhi (hlow.trans ?_) (le_trans ?_ hhigh)
  · gcongr
    exact ha.trans hxl
  · gcongr
    exacts [hc.trans hyl, ha.trans (hxl.trans hxh)]

theorem div (hx : Within a b x) (hy : Within c d y) (ha : 0 ≤ a) (hc : 0 < c) {lo hi : ℚ}
    (hlo : OnGrid lo) (hhi : OnGrid hi) (hlow : lo ≤ a / d) (hhigh : b / c ≤ hi) :
    Within lo hi (x / y) := by
  obtain ⟨p, hp, hxl, hxh⟩ := hx
  obtain ⟨q, hq, hyl, hyh⟩ := hy
  have hpos : 0 < q.exact := hc.trans_le hyl
  refine (Binary.div_nearby hp hq hpos.ne').faithful _ _ hlo hhi (hlow.trans ?_) (le_trans ?_ hhigh)
  · gcongr
    exact ha.trans hxl
  · gcongr
    exact ha.trans (hxl.trans hxh)

theorem isInf (h : Within a b x) : x.isInf = false := by
  obtain ⟨p, hp, -, -⟩ := h
  change x.toModel.unpack.isInf = false
  rw [Binary.unpack_of_ofFloat? hp, Binary.unpacked]
  split_ifs <;> rfl

end Within

end CohortAnalytics
