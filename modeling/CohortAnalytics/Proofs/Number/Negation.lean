import CohortAnalytics.Number.Places
import CohortAnalytics.Proofs.Number.Proper

/-!
Negation of doubles: it turns the sign and nothing else, passes through quotients and roundings, and
swaps the sides of a difference that is not zero.
-/

namespace CohortAnalytics

open Float.Model Float.Model.UnpackedFloat

namespace Binary

theorem unpack_packComponents_neg (s : Sign) (e : BitVec 11) (m : BitVec 52) :
    UnpackedFloat.unpack Format.binary64 (packComponents Format.binary64 (-s) e m) =
      (UnpackedFloat.unpack Format.binary64 (packComponents Format.binary64 s e m)).neg := by
  unfold UnpackedFloat.unpack
  simp only [unpackExponent_packComponents, unpackMantissa_packComponents, unpackSign_packComponents,
    Sign.ofBitVec_toBitVec]
  split_ifs <;> rfl

theorem unpack_pack_neg (f : UnpackedFloat) :
    (Float.Model.pack f.neg).unpack = (Float.Model.pack f).unpack.neg := by
  change UnpackedFloat.unpack _ (UnpackedFloat.pack _ f.neg) =
    (UnpackedFloat.unpack _ (UnpackedFloat.pack _ f)).neg
  cases f with
  | notANumber => rfl
  | infinity s => exact unpack_packComponents_neg s _ _
  | zero s => exact unpack_packComponents_neg s _ _
  | finite s m e hm =>
    simp only [UnpackedFloat.neg, UnpackedFloat.pack]
    split_ifs <;> exact unpack_packComponents_neg s _ _

theorem unpack_pack_unpack (x : Float) :
    (Float.Model.pack x.toModel.unpack).unpack = x.toModel.unpack := by
  obtain ⟨⟨bits, valid⟩⟩ := x
  change UnpackedFloat.unpack _ (UnpackedFloat.pack _ (UnpackedFloat.unpack _ _)) = _
  rw [pack_unpack _ valid]
  rfl

end Binary

namespace Double

theorem unpack_neg (x : Float) : (-x).toModel.unpack = x.toModel.unpack.neg := by
  change (Float.Model.pack x.toModel.unpack.neg).unpack = _
  rw [Binary.unpack_pack_neg, Binary.unpack_pack_unpack]

theorem isNaN_neg (x : Float) : (-x).isNaN = x.isNaN := by
  change (-x).toModel.unpack.isNaN = x.toModel.unpack.isNaN
  rw [unpack_neg]
  cases x.toModel.unpack <;> rfl

theorem eq_neg_of_unpack {x y : Float} (h : x.toModel.unpack = y.toModel.unpack.neg) : x = -y :=
  eq_of_unpack_eq (h.trans (unpack_neg y).symm)

protected theorem abs_neg (x : Float) : (-x).abs = x.abs := by
  have hunpack : (-x).toModel.unpack.abs = x.toModel.unpack.abs := by
    rw [unpack_neg]
    cases x.toModel.unpack <;> rfl
  change Float.ofModel (Float.Model.pack _) = Float.ofModel (Float.Model.pack _)
  rw [hunpack]

theorem abs_eq_or (x : Float) : x.abs = x ∨ x.abs = -x := by
  have hcases : x.toModel.unpack.abs = x.toModel.unpack ∨
      x.toModel.unpack.abs = x.toModel.unpack.neg := by
    cases x.toModel.unpack with
    | notANumber => exact .inl rfl
    | _ s =>
      cases s
      · exact .inr rfl
      · exact .inl rfl
  rcases hcases with h | h
  · left
    apply eq_of_unpack_eq
    change (Float.Model.pack x.toModel.unpack.abs).unpack = _
    rw [h, Binary.unpack_pack_unpack]
  · right
    change Float.ofModel (Float.Model.pack x.toModel.unpack.abs) = _
    rw [h]
    rfl

theorem isNaN_abs (x : Float) : x.abs.isNaN = x.isNaN := by
  rcases abs_eq_or x with h | h <;> rw [h]
  exact isNaN_neg x

protected theorem add_comm (x y : Float) : x + y = y + x := by
  have hsum : ∀ f g : UnpackedFloat, UnpackedFloat.add Format.binary64 f g =
      UnpackedFloat.add Format.binary64 g f := by
    intro f g
    cases f with
    | notANumber => cases g <;> rfl
    | infinity s =>
      cases g with
      | infinity t => cases s <;> cases t <;> rfl
      | _ => rfl
    | zero s =>
      cases g with
      | zero t => cases s <;> cases t <;> rfl
      | _ => rfl
    | finite s m e hm =>
      cases g with
      | finite t n k hn =>
        simp only [UnpackedFloat.add, min_comm k e, Int.add_comm]
      | _ => rfl
  change Float.ofModel (Float.Model.pack _) = Float.ofModel (Float.Model.pack _)
  rw [hsum]

theorem roundWithAccuracy_neg (s : Sign) (m : ℕ) (e : ℤ) (accuracy : Accuracy) :
    roundWithAccuracy Format.binary64 (-s) m e accuracy =
      (roundWithAccuracy Format.binary64 s m e accuracy).neg := by
  unfold roundWithAccuracy
  dsimp only
  split_ifs <;> rfl

protected theorem neg_div (x y : Float) : -x / y = -(x / y) := by
  have hsign (s t : Sign) : -s / t = -(s / t) := by
    cases s <;> cases t <;> rfl
  have hquotient : ∀ f g : UnpackedFloat, UnpackedFloat.div Format.binary64 f.neg g =
      (UnpackedFloat.div Format.binary64 f g).neg := by
    intro f g
    cases f <;> cases g <;>
      simp only [UnpackedFloat.neg, UnpackedFloat.div, hsign, roundWithAccuracy_neg]
  apply eq_neg_of_unpack
  change (Float.Model.pack (UnpackedFloat.div _ (-x).toModel.unpack _)).unpack = _
  rw [unpack_neg, hquotient, Binary.unpack_pack_neg]
  rfl

theorem normalize_neg (n e : ℤ) (hne : n ≠ 0) (s : Sign) :
    UnpackedFloat.normalize Format.binary64 (-n) e s =
      (UnpackedFloat.normalize Format.binary64 n e s).neg := by
  unfold UnpackedFloat.normalize
  rcases lt_or_gt_of_ne hne with h | h
  · rw [compare_lt_iff_lt.mpr h, compare_gt_iff_gt.mpr (by omega)]
    exact roundWithAccuracy_neg .negative _ _ _
  · rw [compare_gt_iff_gt.mpr h, compare_lt_iff_lt.mpr (by omega), neg_neg]
    exact roundWithAccuracy_neg .positive _ _ _

/-- Equal numbers differ by the positive zero on either side. -/
theorem unpacked_sub_swap (f g : UnpackedFloat) :
    UnpackedFloat.sub Format.binary64 f g = (UnpackedFloat.sub Format.binary64 g f).neg ∨
      UnpackedFloat.sub Format.binary64 f g = .zero .positive ∧
        UnpackedFloat.sub Format.binary64 g f = .zero .positive := by
  cases f with
  | notANumber => cases g <;> exact .inl rfl
  | infinity s =>
    cases g with
    | infinity t => cases s <;> cases t <;> exact .inl rfl
    | _ => cases s <;> exact .inl rfl
  | zero s =>
    cases g with
    | zero t =>
      cases s <;> cases t
      · exact .inr ⟨rfl, rfl⟩
      · exact .inl rfl
      · exact .inl rfl
      · exact .inr ⟨rfl, rfl⟩
    | infinity t => cases t <;> exact .inl rfl
    | _ => exact .inl rfl
  | finite s m e hm =>
    cases g with
    | infinity t => cases t <;> exact .inl rfl
    | finite t n k hn =>
      simp only [UnpackedFloat.sub, min_comm k e]
      generalize s.apply _ = a
      generalize t.apply _ = b
      by_cases hab : a = b
      · subst hab
        right
        rw [sub_self]
        exact ⟨rfl, rfl⟩
      · left
        rw [← neg_sub b a]
        exact normalize_neg _ _ (sub_ne_zero.mpr (Ne.symm hab)) _
    | zero t => cases s <;> exact .inl rfl
    | notANumber => exact .inl rfl

theorem sub_swap (x y : Float) : x - y = -(y - x) ∨ x - y = 0 ∧ y - x = 0 := by
  have hzero {u v : Float} (h : UnpackedFloat.sub Format.binary64 u.toModel.unpack v.toModel.unpack =
      .zero .positive) : u - v = 0 := by
    change Float.ofModel (Float.Model.pack _) = _
    rw [h]
    rfl
  rcases unpacked_sub_swap x.toModel.unpack y.toModel.unpack with h | ⟨h, h'⟩
  · left
    apply eq_neg_of_unpack
    change (Float.Model.pack (UnpackedFloat.sub _ _ _)).unpack = _
    rw [h, Binary.unpack_pack_neg]
    rfl
  · exact .inr ⟨hzero h, hzero h'⟩

protected theorem neg_neg (x : Float) : - -x = x := by
  apply eq_of_unpack_eq
  rw [unpack_neg, unpack_neg]
  cases x.toModel.unpack with
  | notANumber => rfl
  | _ s => cases s <;> rfl

protected theorem neg_lt_zero {x : Float} : -x < 0 ↔ 0 < x := by
  have hzero : (0 : Float).toModel.unpack = .zero .positive := rfl
  rw [lt_iff_unpack, lt_iff_unpack, unpack_neg, hzero]
  cases x.toModel.unpack with
  | notANumber => exact Iff.rfl
  | _ s => cases s <;> exact Iff.rfl

theorem neg_pos_iff {x : Float} : 0 < -x ↔ x < 0 := by
  rw [← Double.neg_lt_zero, Double.neg_neg]

end Double

namespace Binary

theorem ofFloat?_neg {x : Float} {b : Binary} (hx : ofFloat? x = some b) :
    ofFloat? (-x) = some b.opposite := by
  have hb := isDouble_of_ofFloat? hx
  have hopposite : b.opposite.IsDouble :=
    ⟨hb.mantissa_lt, hb.exponent_ge, hb.exponent_le, hb.full⟩
  have hpacked := ofFloat?_pack hopposite
  rwa [unpacked_opposite, ← unpack_of_ofFloat? hx] at hpacked

theorem ofFloat?_ofPattern {n : ℕ} (hn : n < infinityBits) :
    ∃ b, ofFloat? (Float.ofBits n.toUInt64) = some b ∧ b.negative = false ∧ b.pattern = n := by
  have hsmall : n < 2047 * 2 ^ 52 := hn
  have hbits : (Float.ofBits n.toUInt64).toBits.toNat = n := toBits_ofBits (by omega) (by omega)
  cases hx : ofFloat? (Float.ofBits n.toUInt64) with
  | none =>
    simp only [ofFloat?, hbits] at hx
    split_ifs at hx
    omega
  | some b =>
    have hpattern := toBits_of_ofFloat? hx
    have hlt := (isDouble_of_ofFloat? hx).pattern_lt
    rw [hbits] at hpattern
    cases hsign : b.negative with
    | false =>
      rw [hsign, if_neg Bool.false_ne_true] at hpattern
      exact ⟨b, rfl, hsign, by omega⟩
    | true =>
      rw [hsign, if_pos rfl] at hpattern
      omega

theorem infinityBits_pos : 0 < infinityBits := by
  unfold infinityBits
  norm_num

theorem ofBits_neg {n : ℕ} (hn : n ≤ infinityBits) :
    Float.ofBits (n + 2 ^ 63).toUInt64 = -Float.ofBits n.toUInt64 := by
  rcases hn.lt_or_eq with hlt | rfl
  · obtain ⟨b, hb, hsign, hpattern⟩ := ofFloat?_ofPattern hlt
    have hbits := ofBits_of_ofFloat? (ofFloat?_neg hb)
    rw [← hbits, ← hpattern, opposite, hsign]
    rfl
  · decide

theorem ofFloat?_zero : ofFloat? 0 = some ⟨false, 0, -1074⟩ := by
  decide

theorem pos_of_magnitudeValue {x : Float} {b : Binary} (hx : ofFloat? x = some b)
    (hsign : b.negative = false) (h : 0 < b.magnitudeValue) : 0 < x := by
  rw [lt_iff_exact ofFloat?_zero hx, exact_zero rfl, exact_of_positive hsign]
  exact h

theorem ofBits_pos {n : ℕ} (hpos : 0 < n) (hn : n ≤ infinityBits) : 0 < Float.ofBits n.toUInt64 := by
  rcases hn.lt_or_eq with hlt | rfl
  · obtain ⟨b, hb, hsign, hpattern⟩ := ofFloat?_ofPattern hlt
    have hmantissa : 0 < b.mantissa := by
      have hfull := (isDouble_of_ofFloat? hb).full
      rw [pattern] at hpattern
      omega
    exact pos_of_magnitudeValue hb hsign (magnitudeValue_pos hmantissa)
  · decide

theorem bits_le (num den : ℕ) :
    (if num = 0 then 0 else min (quotientBits num den) infinityBits) ≤ infinityBits := by
  split_ifs
  · exact Nat.zero_le _
  · exact min_le_right _ _

theorem ofQuotient_neg (negative : Bool) (num den : ℕ) :
    ofQuotient (!negative) num den = -ofQuotient negative num den := by
  have hneg : ofQuotient true num den = -ofQuotient false num den := ofBits_neg (bits_le num den)
  cases negative with
  | false => exact hneg
  | true =>
    rw [hneg, Double.neg_neg]
    rfl

theorem isNaN_ofQuotient (negative : Bool) (num den : ℕ) :
    (ofQuotient negative num den).isNaN = false := by
  have hbits {n : ℕ} (hn : n ≤ infinityBits) : (Float.ofBits n.toUInt64).isNaN = false := by
    rcases hn.lt_or_eq with hlt | rfl
    · obtain ⟨b, hb, -, -⟩ := ofFloat?_ofPattern hlt
      exact isNaN_of_ofFloat? hb
    · decide
  have hpositive : (ofQuotient false num den).isNaN = false := hbits (bits_le num den)
  cases negative with
  | false => exact hpositive
  | true =>
    rw [← Bool.not_false, ofQuotient_neg, Double.isNaN_neg]
    exact hpositive

/-- A quotient that is not below the least double is not rounded to zero. -/
theorem ofQuotient_pos {num den : ℕ} (hnum : 0 < num) (hden : 0 < den) (hle : den ≤ 2 ^ 1074) :
    0 < ofQuotient false num den := by
  obtain ⟨t, r, hcell, hbits⟩ := quotient_cell hnum hden
  have hunit : (2 : ℚ) ^ t ≤ num / den := by
    rcases hcell.full with rfl | hfull
    · have hpos : (0 : ℚ) < den := by exact_mod_cast hden
      have hone : (1 : ℚ) ≤ num := by exact_mod_cast hnum
      have hbound : (den : ℚ) ≤ 2 ^ 1074 := by exact_mod_cast hle
      rw [zpow_neg, zpow_ofNat, ← one_div]
      gcongr
    · exact (zpow_le_zpow_right₀ (by norm_num) (by omega)).trans hfull
  have hr := hcell.above 1 (by simpa using hunit)
  rw [ofQuotient, if_neg hnum.ne', if_neg Bool.false_ne_true, Nat.add_zero]
  refine ofBits_pos (lt_min ?_ infinityBits_pos) (min_le_right _ _)
  omega

end Binary

section Rounding

variable {x : Float} {b : Binary}

theorem roundPlaces_neg (places : ℕ) (x : Float) :
    roundPlaces places (-x) = -roundPlaces places x := by
  cases hx : Binary.ofFloat? x with
  | some b =>
    simp only [roundPlaces, hx, Binary.ofFloat?_neg hx]
    exact Binary.ofQuotient_neg b.negative _ _
  | none =>
    have hneg : Binary.ofFloat? (-x) = none := by
      cases hn : Binary.ofFloat? (-x) with
      | none => rfl
      | some d =>
        have hback := Binary.ofFloat?_neg hn
        rw [Double.neg_neg, hx] at hback
        cases hback
    simp only [roundPlaces, hx, hneg]

theorem isNaN_roundPlaces (places : ℕ) (h : x.isNaN = false) :
    (roundPlaces places x).isNaN = false := by
  rw [roundPlaces]
  split
  · exact h
  · exact Binary.isNaN_ofQuotient _ _ _

/-- A number of at least one unit of the last place that is kept is not rounded to zero. -/
theorem roundPlaces_pos {places : ℕ} (hplaces : 10 ^ places ≤ 2 ^ 1074)
    (hx : Binary.ofFloat? x = some b) (hsign : b.negative = false)
    (hunit : 1 ≤ b.magnitudeValue * 10 ^ places) : 0 < roundPlaces places x := by
  have hnear := Binary.nearest_near (b.numerator * 10 ^ places) b.denominator_pos
  rw [Nat.cast_mul, mul_div_right_comm, b.numerator_div_denominator] at hnear
  have hone : 1 ≤ b.inPlaces places := by
    have := hnear.above 1 (by exact_mod_cast hunit)
    exact_mod_cast this
  simp only [roundPlaces, hx, hsign]
  exact Binary.ofQuotient_pos hone (by positivity) hplaces

theorem roundPlaces_zero (places : ℕ) : roundPlaces places 0 = 0 := by
  have hnearest (den : ℕ) : Binary.nearest 0 den = 0 := by
    simp [Binary.nearest]
  simp only [roundPlaces, Binary.ofFloat?_zero, Binary.inPlaces, Binary.numerator, Nat.zero_mul, hnearest]
  rw [Binary.ofQuotient, if_pos rfl]
  decide

end Rounding

namespace Double

variable {x y : Float}

/-- The first number is the second one negated, or both are the same zero. -/
def Opposite (x y : Float) : Prop := x = -y ∨ x = y ∧ (y = 0 ∨ y = -0)

namespace Opposite

theorem abs (h : Opposite x y) : x.abs = y.abs := by
  rcases h with rfl | ⟨rfl, -⟩
  · exact Double.abs_neg y
  · rfl

theorem roundPlaces (h : Opposite x y) (places : ℕ) :
    Opposite (roundPlaces places x) (roundPlaces places y) := by
  rcases h with rfl | ⟨rfl, rfl | rfl⟩
  · exact .inl (roundPlaces_neg places y)
  · exact .inr ⟨rfl, .inl (roundPlaces_zero places)⟩
  · exact .inr ⟨rfl, .inr (by rw [roundPlaces_neg, roundPlaces_zero])⟩

theorem beq_neg (h : Opposite x y) (hx : x.isNaN = false) : (x == -y) = true := by
  rcases h with rfl | ⟨rfl, rfl | rfl⟩
  · rw [Float.beq_self_iff]
    simpa using hx
  all_goals decide

end Opposite

theorem zero_div_eq_or (hx : x.isNaN = false) (hne : (x == 0) = false) : 0 / x = 0 ∨ 0 / x = -0 := by
  have hquotient : ∃ s, (0 / x).toModel.unpack = .zero s := by
    have hzero (s : Sign) : x.toModel.unpack ≠ .zero s := by
      intro hs
      rw [beq_eq_unpack, hs] at hne
      cases s <;> cases hne
    change ∃ s, (Float.Model.pack (UnpackedFloat.div Format.binary64 (.zero .positive)
      x.toModel.unpack)).unpack = .zero s
    change x.toModel.unpack.isNaN = false at hx
    cases hf : x.toModel.unpack with
    | notANumber =>
      rw [hf] at hx
      cases hx
    | zero s => exact absurd hf (hzero s)
    | _ s => exact ⟨_, unpack_packedZero⟩
  obtain ⟨s, hs⟩ := hquotient
  cases s with
  | positive => exact .inl (eq_of_unpack_eq hs)
  | negative => exact .inr (eq_of_unpack_eq hs)

end Double

end CohortAnalytics
