import CohortAnalytics.Proofs.Number.Rounding

/-!
Doubles and their bits. A double is determined by its sign, mantissa and exponent, or is one of the
two infinities or the one that is not a number.
-/

namespace CohortAnalytics

open Float.Model Float.Model.UnpackedFloat

theorem unpackMantissa_toNat (b : BitVec Format.binary64.numBits) :
    (unpackMantissa b).toNat = b.toNat % 2 ^ 52 := by
  simp [unpackMantissa]

theorem unpackExponent_toNat (b : BitVec Format.binary64.numBits) :
    (unpackExponent b).toNat = b.toNat / 2 ^ 52 % 2 ^ 11 := by
  simp [unpackExponent, Nat.shiftRight_eq_div_pow]

theorem unpackSign_toNat (b : BitVec Format.binary64.numBits) :
    (unpackSign b).toNat = b.toNat / 2 ^ 63 := by
  have h : b.toNat < 2 ^ 64 := b.isLt
  simp [unpackSign, Nat.shiftRight_eq_div_pow]
  omega

theorem packComponents_toNat (s : Sign) (e : BitVec 11) (m : BitVec 52) :
    (packComponents Format.binary64 s e m).toNat =
      s.toBitVec.toNat * 2 ^ 63 + e.toNat * 2 ^ 52 + m.toNat := by
  have he := e.isLt
  have hm := m.isLt
  simp only [packComponents, BitVec.toNat_append]
  rw [← Nat.shiftLeft_add_eq_or_of_lt (by simpa using hm),
    ← Nat.shiftLeft_add_eq_or_of_lt (by simpa using he)]
  simp only [Nat.shiftLeft_eq]
  omega

theorem packComponents_unpack (b : BitVec Format.binary64.numBits) :
    packComponents Format.binary64 (Sign.ofBitVec (unpackSign b)) (unpackExponent b)
      (unpackMantissa b) = b := by
  have hs : ∀ s : BitVec 1, (Sign.ofBitVec s).toBitVec = s := by decide
  apply BitVec.eq_of_toNat_eq
  rw [packComponents_toNat, hs, unpackSign_toNat, unpackExponent_toNat, unpackMantissa_toNat]
  have h : b.toNat < 2 ^ 64 := b.isLt
  omega

theorem pack_unpack (b : BitVec Format.binary64.numBits) (hb : Format.binary64.Valid b) :
    UnpackedFloat.pack Format.binary64 (UnpackedFloat.unpack Format.binary64 b) = b := by
  have hcomponents := packComponents_unpack b
  have hm : (unpackMantissa b).toNat < 2 ^ 52 := (unpackMantissa b).isLt
  have he : (unpackExponent b).toNat < 2 ^ 11 := (unpackExponent b).isLt
  dsimp only [UnpackedFloat.unpack]
  by_cases hinf : unpackExponent b = -1#11
  · rw [if_pos hinf]
    by_cases hzero : unpackMantissa b = 0#52
    · rw [if_pos hzero]
      rw [hinf, hzero] at hcomponents
      exact hcomponents
    · rw [if_neg hzero]
      exact (hb.eq_packedNaN hinf hzero).symm
  have hmax : (unpackExponent b).toNat ≠ 2047 :=
    fun h => hinf (BitVec.eq_of_toNat_eq h)
  rw [if_neg hinf]
  by_cases hsub : unpackExponent b = 0#11
  · rw [if_pos hsub]
    by_cases hzero : unpackMantissa b = 0#52
    · rw [dif_pos hzero]
      rw [hsub, hzero] at hcomponents
      exact hcomponents
    · have hpos : (unpackMantissa b).toNat ≠ 0 := fun h => hzero (BitVec.eq_of_toNat_eq h)
      have hlog : (unpackMantissa b).toNat.log2 < 52 := (Nat.log2_lt hpos).mpr hm
      rw [dif_neg hzero, UnpackedFloat.pack, hsub]
      rw [if_neg (by decide), if_neg (by change ¬_ + 1 = 53; omega), BitVec.ofNat_toNat,
        BitVec.setWidth_eq, ← hsub]
      exact hcomponents
  · have hmin : (unpackExponent b).toNat ≠ 0 := fun h => hsub (BitVec.eq_of_toNat_eq h)
    have hmant : (1#1 ++ unpackMantissa b).toNat = 2 ^ 52 + (unpackMantissa b).toNat := by
      rw [BitVec.toNat_append, ← Nat.shiftLeft_add_eq_or_of_lt hm]
      rfl
    have hlog : (2 ^ 52 + (unpackMantissa b).toNat).log2 = 52 := by
      rw [Nat.log2_eq_iff (by omega)]
      omega
    have hbiased : (((unpackExponent b).toNat : Int) - (Format.binary64.exponentBias +
        Format.binary64.mantissaBitsWithoutImplicit) + Format.binary64.exponentBias +
        Format.binary64.mantissaBitsWithoutImplicit).toNat = (unpackExponent b).toNat := by omega
    rw [if_neg hsub, UnpackedFloat.pack, hbiased, hmant, hlog]
    have hbits : 52 + 1 = Format.binary64.mantissaBits := rfl
    rw [if_neg (by change ¬2 ^ 11 ≤ _; omega), if_pos hbits, BitVec.ofNat_toNat, BitVec.setWidth_eq]
    have hlow : BitVec.ofNat 52 (2 ^ 52 + (unpackMantissa b).toNat) = unpackMantissa b := by
      apply BitVec.eq_of_toNat_eq
      rw [BitVec.toNat_ofNat, Nat.add_mod_left, Nat.mod_eq_of_lt hm]
    rw [hlow]
    exact hcomponents

theorem eq_of_unpack_eq {x y : Float} (h : x.toModel.unpack = y.toModel.unpack) : x = y := by
  obtain ⟨⟨xbits, xvalid⟩⟩ := x
  obtain ⟨⟨ybits, yvalid⟩⟩ := y
  have hpacked := congrArg (UnpackedFloat.pack Format.binary64) h
  simp only [Float.Model.unpack, pack_unpack _ xvalid, pack_unpack _ yvalid] at hpacked
  obtain rfl := UInt64.toBitVec_inj.mp hpacked
  rfl

namespace Binary

def sign (b : Binary) : Sign := if b.negative then .negative else .positive

def unpacked (b : Binary) : UnpackedFloat :=
  if h : 0 < b.mantissa then .finite b.sign b.mantissa b.exponent h else .zero b.sign

theorem sign_ofFields {bits : BitVec Format.binary64.numBits} {fraction : ℕ} {exponent : ℤ} :
    sign ⟨bits.toNat / 2 ^ 63 == 1, fraction, exponent⟩ = Sign.ofBitVec (unpackSign bits) := by
  have h := unpackSign_toNat bits
  have hcases : unpackSign bits = 0#1 ∨ unpackSign bits = 1#1 := by
    generalize unpackSign bits = s
    revert s
    decide
  rcases hcases with hs | hs <;> rw [hs] at h ⊢ <;> rw [sign, ← h] <;> rfl

theorem unpack_of_ofFloat? {x : Float} {b : Binary} (h : ofFloat? x = some b) :
    x.toModel.unpack = b.unpacked := by
  obtain ⟨⟨bits, valid⟩⟩ := x
  have hm := unpackMantissa_toNat bits.toBitVec
  have he := unpackExponent_toNat bits.toBitVec
  simp only [ofFloat?, Float.toBits, ← UInt64.toNat_toBitVec, ← hm, ← he] at h
  dsimp only [Float.Model.unpack, UnpackedFloat.unpack]
  split_ifs at h with hinf hsub
  all_goals obtain rfl := Option.some.inj h
  all_goals rw [if_neg (fun hmax => hinf (by rw [hmax]; rfl))]
  · have hzero : @unpackExponent Format.binary64 bits.toBitVec = 0#11 := BitVec.eq_of_toNat_eq hsub
    rw [if_pos hzero]
    by_cases hmant : @unpackMantissa Format.binary64 bits.toBitVec = 0#52
    · rw [dif_pos hmant, unpacked, dif_neg (by simp [hmant]), sign_ofFields]
    · have hpos : 0 < (@unpackMantissa Format.binary64 bits.toBitVec).toNat :=
        Nat.pos_of_ne_zero fun h => hmant (BitVec.eq_of_toNat_eq h)
      rw [dif_neg hmant, unpacked, dif_pos hpos, sign_ofFields, hzero]
      rfl
  · have hmant (m : BitVec 52) : (1#1 ++ m).toNat = m.toNat + 2 ^ 52 := by
      rw [BitVec.toNat_append, ← Nat.shiftLeft_add_eq_or_of_lt m.isLt, Nat.add_comm]
      rfl
    rw [if_neg fun hzero => hsub (by rw [hzero]; rfl), unpacked, dif_pos (by simp),
      sign_ofFields]
    simp only [hmant]
    rfl

theorem unpack_of_ofFloat?_none {x : Float} (h : ofFloat? x = none) :
    x.toModel.unpack = .notANumber ∨ ∃ s, x.toModel.unpack = .infinity s := by
  obtain ⟨⟨bits, valid⟩⟩ := x
  have he := unpackExponent_toNat bits.toBitVec
  simp only [ofFloat?, Float.toBits, ← UInt64.toNat_toBitVec, ← he] at h
  dsimp only [Float.Model.unpack, UnpackedFloat.unpack]
  split_ifs at h with hinf
  have hmax : @unpackExponent Format.binary64 bits.toBitVec = -1#11 := BitVec.eq_of_toNat_eq hinf
  rw [if_pos hmax]
  split_ifs
  · exact .inr ⟨_, rfl⟩
  · exact .inl rfl

theorem isDouble_of_ofFloat? {x : Float} {b : Binary} (h : ofFloat? x = some b) : b.IsDouble := by
  simp only [ofFloat?] at h
  split_ifs at h with hinf hsub
  all_goals obtain rfl := Option.some.inj h
  · exact ⟨by dsimp only; omega, by dsimp only; omega, by dsimp only; omega, .inr rfl⟩
  · exact ⟨by dsimp only; omega, by dsimp only; omega, by dsimp only; omega,
      .inl (by dsimp only; omega)⟩

theorem toBits_of_ofFloat? {x : Float} {b : Binary} (h : ofFloat? x = some b) :
    x.toBits.toNat = b.pattern + if b.negative then 2 ^ 63 else 0 := by
  have hlt : x.toBits.toNat < 2 ^ 64 := x.toBits.toNat_lt
  simp only [ofFloat?] at h
  split_ifs at h with hinf hsub
  all_goals obtain rfl := Option.some.inj h
  all_goals simp only [pattern, beq_iff_eq]
  all_goals split_ifs
  all_goals omega

theorem IsDouble.pattern_lt {b : Binary} (hb : b.IsDouble) : b.pattern < infinityBits := by
  obtain ⟨hm, hge, hle, -⟩ := hb
  simp only [pattern, infinityBits]
  omega

theorem ofBits_of_ofFloat? {x : Float} {b : Binary} (h : ofFloat? x = some b) :
    Float.ofBits (b.pattern + if b.negative then 2 ^ 63 else 0).toUInt64 = x := by
  rw [← toBits_of_ofFloat? h]
  simp

/-- Every quotient that rounds to a double becomes this double. -/
theorem ofQuotient_eq {x : Float} {b : Binary} (h : ofFloat? x = some b) {num den : ℕ}
    (hnum : 0 < num) (hden : 0 < den) (hround : b.Rounds ((num : ℚ) / den)) :
    ofQuotient b.negative num den = x := by
  have hb := isDouble_of_ofFloat? h
  rw [ofQuotient, if_neg hnum.ne', quotientBits_eq hb hnum hden hround,
    Nat.min_eq_left hb.pattern_lt.le]
  exact ofBits_of_ofFloat? h

theorem ofQuotient_zero {x : Float} {b : Binary} (h : ofFloat? x = some b) (hm : b.mantissa = 0) :
    ofQuotient b.negative 0 1 = x := by
  have hpattern : b.pattern = 0 := by
    have hfull := (isDouble_of_ofFloat? h).full
    rw [pattern, hm]
    omega
  have hbits := ofBits_of_ofFloat? h
  rw [hpattern] at hbits
  exact hbits

end Binary

/-- The three numbers that are not finite, as they are read. -/
theorem special_of_ofFloat?_none {x : Float} (h : Binary.ofFloat? x = none) :
    (x.isNaN = true ∧ x = 0.0 / 0.0) ∨
      (x.isNaN = false ∧ (x < 0) ∧ x = -(1.0 / 0.0)) ∨
        (x.isNaN = false ∧ ¬(x < 0) ∧ x = 1.0 / 0.0) := by
  have hzero : (0 : Float).toModel.unpack = .zero .positive := rfl
  have hlt : x < 0 ↔ x.toModel.unpack.lt (.zero .positive) = true := by
    rw [← hzero]
    exact decide_eq_true_iff
  have hnan : x.isNaN = x.toModel.unpack.isNaN := rfl
  rw [hlt, hnan]
  rcases Binary.unpack_of_ofFloat?_none h with hx | ⟨s, hx⟩
  · exact .inl ⟨by rw [hx]; rfl, eq_of_unpack_eq hx⟩
  cases s with
  | negative =>
    refine .inr (.inl ⟨by rw [hx]; rfl, by rw [hx]; rfl, eq_of_unpack_eq (hx.trans ?_)⟩)
    rfl
  | positive =>
    refine .inr (.inr ⟨by rw [hx]; rfl, by rw [hx]; decide, eq_of_unpack_eq (hx.trans ?_)⟩)
    rfl

end CohortAnalytics
