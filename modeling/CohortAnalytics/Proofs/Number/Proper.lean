import CohortAnalytics.Proofs.Number.Operations

/-!
Operations that do not lead out of the numbers: a packed number is one again, and so are the root of
a number that is not negative and the quotient of a finite number by one that is not zero.
-/

namespace CohortAnalytics

open Float.Model UnpackedFloat

namespace Binary

theorem isNaN_unpack {bits : BitVec Format.binary64.numBits} :
    (UnpackedFloat.unpack Format.binary64 bits).isNaN = true ↔
      UnpackedFloat.unpackExponent bits = -1#_ ∧ UnpackedFloat.unpackMantissa bits ≠ 0#_ := by
  unfold UnpackedFloat.unpack
  dsimp only
  split_ifs with hfull hmantissa hzero hmantissa <;> simp_all [UnpackedFloat.isNaN]

theorem isNaN_pack {f : UnpackedFloat} (h : f.isNaN = false) :
    (Float.Model.pack f).unpack.isNaN = false := by
  rw [Bool.eq_false_iff]
  intro hnan
  -- All bits of the exponent are set, which leaves the infinities, and they have no mantissa.
  obtain ⟨hexponent, hmantissa⟩ := isNaN_unpack.mp hnan
  change UnpackedFloat.unpackExponent (UnpackedFloat.pack Format.binary64 f) = _ at hexponent
  change UnpackedFloat.unpackMantissa (UnpackedFloat.pack Format.binary64 f) ≠ _ at hmantissa
  cases f with
  | notANumber => cases h
  | infinity s =>
    rw [UnpackedFloat.pack, UnpackedFloat.packedInfinity,
      UnpackedFloat.unpackMantissa_packComponents] at hmantissa
    exact hmantissa rfl
  | zero s =>
    rw [UnpackedFloat.pack, UnpackedFloat.packedZero,
      UnpackedFloat.unpackExponent_packComponents] at hexponent
    revert hexponent
    decide
  | finite s m e hm =>
    rw [UnpackedFloat.pack] at hexponent hmantissa
    dsimp only at hexponent hmantissa
    split_ifs at hexponent hmantissa with hlarge hnormal
    · rw [UnpackedFloat.packedInfinity, UnpackedFloat.unpackMantissa_packComponents] at hmantissa
      exact hmantissa rfl
    · rw [UnpackedFloat.unpackExponent_packComponents, ← BitVec.toNat_inj, BitVec.toNat_ofNat,
        Nat.mod_eq_of_lt (by omega)] at hexponent
      have hones : (-1#_ : BitVec Format.binary64.exponentBits).toNat = 2047 := rfl
      rw [hones] at hexponent
      have hfull : 2 ^ Format.binary64.exponentBits = 2048 := rfl
      rw [hfull] at hlarge
      omega
    · rw [UnpackedFloat.unpackExponent_packComponents] at hexponent
      revert hexponent
      decide

theorem isNaN_roundWithAccuracy (s : Sign) (m : ℕ) (e : ℤ) (accuracy : UnpackedFloat.Accuracy) :
    (UnpackedFloat.roundWithAccuracy Format.binary64 s m e accuracy).isNaN = false := by
  unfold UnpackedFloat.roundWithAccuracy
  dsimp only
  split_ifs <;> rfl

end Binary

theorem eq_of_isNaN {x : Float} (h : x.isNaN = true) : x = 0.0 / 0.0 := by
  cases hx : Binary.ofFloat? x with
  | none =>
    rcases special_of_ofFloat?_none hx with ⟨-, heq⟩ | ⟨hnot, -⟩ | ⟨hnot, -⟩
    · exact heq
    · rw [h] at hnot
      cases hnot
    · rw [h] at hnot
      cases hnot
  | some b =>
    rw [isNaN_of_ofFloat? hx] at h
    cases h

theorem Within.isNaN_sqrt {b : ℚ} {x : Float} (h : Within 0 b x) : x.sqrt.isNaN = false := by
  obtain ⟨p, hp, hlow, -⟩ := h
  apply Binary.isNaN_pack
  rw [Binary.unpack_of_ofFloat? hp]
  by_cases hpos : 0 < p.mantissa
  · have hsign : p.sign = .positive := by
      by_contra hne
      have hneg : p.negative = true := by
        by_contra hn
        exact hne (by rw [Binary.sign, if_neg hn])
      have hvalue := Binary.magnitudeValue_pos hpos
      rw [Binary.exact_eq, if_pos hneg] at hlow
      linarith
    rw [Binary.unpacked_of_pos hpos, hsign]
    exact Binary.isNaN_roundWithAccuracy _ _ _ _
  · rw [Binary.unpacked_of_zero hpos]
    rfl

theorem Within.isNaN_div {a b : ℚ} {x y : Float} (hx : Within a b x) (hy : y.isNaN = false)
    (hne : (y == 0) = false) : (x / y).isNaN = false := by
  -- Zero by zero and infinite by infinite are the quotients that are no numbers.
  obtain ⟨p, hp, -, -⟩ := hx
  have hzero (s : Sign) : y.toModel.unpack ≠ .zero s := by
    intro hs
    have heq : (y == 0) = UnpackedFloat.beq y.toModel.unpack (0 : Float).toModel.unpack := rfl
    rw [hne, hs, show (0 : Float).toModel.unpack = .zero .positive from rfl] at heq
    cases heq
  apply Binary.isNaN_pack
  change y.toModel.unpack.isNaN = false at hy
  rw [Binary.unpack_of_ofFloat? hp, Binary.unpacked]
  generalize y.toModel.unpack = f at hy hzero
  cases f with
  | notANumber => cases hy
  | zero s => exact absurd rfl (hzero s)
  | infinity s => split_ifs <;> rfl
  | finite s m e hm =>
    split_ifs
    · exact Binary.isNaN_roundWithAccuracy _ _ _ _
    · rfl

end CohortAnalytics
