import CohortAnalytics.Proofs.Number.Integers
import CohortAnalytics.Proofs.Number.Nearest

/-!
Finite doubles. A finite result has finite operands, but for a quotient, which may be of an infinite
number and is zero then. The number before a double, and the whole number above it.
-/

namespace CohortAnalytics

open Float.Model Float.Model.UnpackedFloat

theorem unpack_pack_of_not_isFinite {f : UnpackedFloat} (h : f.isFinite = false) :
    (Float.Model.pack f).unpack = f := by
  cases f with
  | notANumber => rfl
  | infinity s => cases s <;> rfl
  | zero s => cases h
  | finite s m e hm => cases h

namespace Double

variable {x y : Float} {b d : Binary}

theorem isFinite_of_ofFloat? (hx : Binary.ofFloat? x = some b) : x.isFinite = true := by
  change x.toModel.unpack.isFinite = true
  rw [Binary.unpack_of_ofFloat? hx, Binary.unpacked]
  split_ifs <;> rfl

theorem isFinite_iff : x.isFinite = true ↔ ∃ b, Binary.ofFloat? x = some b := by
  constructor
  · intro h
    cases hx : Binary.ofFloat? x with
    | some b => exact ⟨b, rfl⟩
    | none =>
      change x.toModel.unpack.isFinite = true at h
      rcases Binary.unpack_of_ofFloat?_none hx with hu | ⟨s, hu⟩ <;> rw [hu] at h <;> cases h
  · rintro ⟨b, hx⟩
    exact isFinite_of_ofFloat? hx

theorem isNaN_of_isFinite (h : x.isFinite = true) : x.isNaN = false := by
  obtain ⟨b, hx⟩ := isFinite_iff.mp h
  exact isNaN_of_ofFloat? hx

theorem isInf_of_isFinite (h : x.isFinite = true) : x.isInf = false := by
  change x.toModel.unpack.isFinite = true at h
  change x.toModel.unpack.isInf = false
  cases hx : x.toModel.unpack <;> rw [hx] at h <;> first | rfl | cases h

theorem isFinite_of_pack {f : UnpackedFloat}
    (h : (⟨Float.Model.pack f⟩ : Float).isFinite = true) : f.isFinite = true := by
  by_contra hf
  change (Float.Model.pack f).unpack.isFinite = true at h
  rw [unpack_pack_of_not_isFinite (Bool.eq_false_of_not_eq_true hf)] at h
  exact hf h

theorem isFinite_of_mul (h : (x * y).isFinite = true) : x.isFinite = true ∧ y.isFinite = true := by
  replace h : (UnpackedFloat.mul Format.binary64 x.toModel.unpack y.toModel.unpack).isFinite = true :=
    isFinite_of_pack h
  change x.toModel.unpack.isFinite = true ∧ y.toModel.unpack.isFinite = true
  generalize x.toModel.unpack = f at *
  generalize y.toModel.unpack = g at *
  cases f <;> cases g <;> first | exact ⟨rfl, rfl⟩ | cases h

theorem isFinite_of_add (h : (x + y).isFinite = true) : x.isFinite = true ∧ y.isFinite = true := by
  replace h : (UnpackedFloat.add Format.binary64 x.toModel.unpack y.toModel.unpack).isFinite = true :=
    isFinite_of_pack h
  change x.toModel.unpack.isFinite = true ∧ y.toModel.unpack.isFinite = true
  generalize x.toModel.unpack = f at *
  generalize y.toModel.unpack = g at *
  -- two infinite numbers are told apart by their signs
  rcases f with s | _ | _ | _ <;> rcases g with t | _ | _ | _ <;>
    first | exact ⟨rfl, rfl⟩ | cases h | (cases s <;> cases t <;> cases h)

theorem isFinite_of_div (h : (x / y).isFinite = true) : x.isFinite = true ∧ (y == 0) = false := by
  replace h : (UnpackedFloat.div Format.binary64 x.toModel.unpack y.toModel.unpack).isFinite = true :=
    isFinite_of_pack h
  change x.toModel.unpack.isFinite = true ∧ y.toModel.unpack.beq (0 : Float).toModel.unpack = false
  rw [show (0 : Float).toModel.unpack = .zero .positive from rfl]
  generalize x.toModel.unpack = f at *
  generalize y.toModel.unpack = g at *
  cases f with
  | notANumber => cases h
  | infinity s => cases g <;> cases h
  | zero s =>
    cases g with
    | notANumber => cases h
    | zero t => cases h
    | infinity t => cases t <;> exact ⟨rfl, rfl⟩
    | finite t m e hm => cases t <;> exact ⟨rfl, rfl⟩
  | finite s m e hm =>
    cases g with
    | notANumber => cases h
    | zero t => cases h
    | infinity t => cases t <;> exact ⟨rfl, rfl⟩
    | finite t m e hm => cases t <;> exact ⟨rfl, rfl⟩

theorem div_of_not_isFinite (f : UnpackedFloat) {g : UnpackedFloat} (h : g.isFinite = false) :
    UnpackedFloat.div Format.binary64 f g = .notANumber ∨
      ∃ s, UnpackedFloat.div Format.binary64 f g = .zero s := by
  cases g with
  | notANumber => cases f <;> exact .inl rfl
  | infinity t => cases f <;> first | exact .inl rfl | exact .inr ⟨_, rfl⟩
  | zero t => cases h
  | finite t m e hm => cases h

/-- What is divided by an infinite number is zero or no number at all. -/
theorem isFinite_of_pos_div (h : 0 < x / y) : y.isFinite = true := by
  by_contra hy
  rw [lt_iff_unpack] at h
  change (UnpackedFloat.zero .positive).lt (Float.Model.pack (UnpackedFloat.div Format.binary64
    x.toModel.unpack y.toModel.unpack)).unpack = true at h
  rcases div_of_not_isFinite x.toModel.unpack (Bool.eq_false_of_not_eq_true hy) with hdiv | ⟨s, hdiv⟩
  · rw [hdiv] at h
    exact Bool.false_ne_true h
  · rw [hdiv] at h
    cases s <;> exact Bool.false_ne_true h

theorem isNaN_of_pack {f : UnpackedFloat} (h : f = .notANumber) :
    (⟨Float.Model.pack f⟩ : Float).isNaN = true := by
  rw [h]
  rfl

theorem isNaN_mul (h : x.isNaN = true ∨ y.isNaN = true) : (x * y).isNaN = true := by
  have hleft (f : UnpackedFloat) : UnpackedFloat.mul Format.binary64 .notANumber f = .notANumber := by
    cases f <;> rfl
  have hright (f : UnpackedFloat) : UnpackedFloat.mul Format.binary64 f .notANumber = .notANumber := by
    cases f <;> rfl
  rcases h with h | h <;> rw [eq_of_isNaN h]
  · exact isNaN_of_pack (hleft _)
  · exact isNaN_of_pack (hright _)

theorem isNaN_div (h : y.isNaN = true) : (x / y).isNaN = true := by
  have hright (f : UnpackedFloat) : UnpackedFloat.div Format.binary64 f .notANumber = .notANumber := by
    cases f <;> rfl
  rw [eq_of_isNaN h]
  exact isNaN_of_pack (hright _)

theorem isNaN_of_add (h : (x + y).isNaN = false) : x.isNaN = false ∧ y.isNaN = false := by
  have hsum : UnpackedFloat.add Format.binary64 x.toModel.unpack y.toModel.unpack ≠ .notANumber :=
    fun hnan => Bool.false_ne_true (h.symm.trans (isNaN_of_pack hnan))
  change x.toModel.unpack.isNaN = false ∧ y.toModel.unpack.isNaN = false
  generalize x.toModel.unpack = f at *
  generalize y.toModel.unpack = g at *
  cases f <;> cases g <;> first | exact ⟨rfl, rfl⟩ | exact absurd rfl hsum

theorem le_of_lt (h : x < y) : x ≤ y := by
  obtain ⟨hx, hy⟩ := isNaN_of_lt h
  rw [le_iff_position hx hy]
  exact ((lt_iff_position hx hy).mp h).le

theorem pos_iff (hx : Binary.ofFloat? x = some b) : 0 < x ↔ 0 < b.exact := by
  rw [lt_iff_exact Binary.ofFloat?_zero hx, Binary.exact_zero rfl]

/-- What lies between finite numbers is finite. -/
theorem exists_between {low high : Float} {c : Binary} (hlow : Binary.ofFloat? low = some b)
    (hhigh : Binary.ofFloat? high = some c) (hle : low ≤ x) (hlt : x < high) :
    ∃ d, Binary.ofFloat? x = some d ∧ b.exact ≤ d.exact ∧ d.exact < c.exact := by
  have hproper := (isNaN_of_lt hlt).1
  rw [le_iff_position (isNaN_of_ofFloat? hlow) hproper, Number.position_float hlow] at hle
  rw [lt_iff_position hproper (isNaN_of_ofFloat? hhigh), Number.position_float hhigh] at hlt
  cases hx : Binary.ofFloat? x with
  | some d =>
    rw [Number.position_float hx] at hle hlt
    exact ⟨d, rfl, by exact_mod_cast hle, by exact_mod_cast hlt⟩
  | none =>
    simp only [Number.position, hx] at hle hlt
    split_ifs at hle hlt
    · exact absurd hle (not_le.mpr (WithBot.bot_lt_coe _))
    · exact absurd hlt (not_lt.mpr le_top)

theorem ceilFloat?_of_finite (hx : Binary.ofFloat? x = some b) : ceilFloat? x = some ⌈b.exact⌉ := by
  rw [ceilFloat?, hx, Option.map_some]
  exact congrArg some (Rat.ceil_intCast_div_natCast _ _).symm

/-- A number that is positive and finite is one whose ceiling is positive. -/
theorem ceilFloat?_pos_iff : (∃ n > 0, ceilFloat? x = some n) ↔ 0 < x ∧ x.isFinite = true := by
  cases hx : Binary.ofFloat? x with
  | none =>
    have hinfinite : ¬x.isFinite = true := fun h => by
      obtain ⟨b, hb⟩ := isFinite_iff.mp h
      cases hx.symm.trans hb
    simp [ceilFloat?, hx, hinfinite]
  | some b =>
    simp only [ceilFloat?_of_finite hx, Option.some.injEq, exists_eq_right', isFinite_of_ofFloat? hx,
      and_true, pos_iff hx]
    exact Int.ceil_pos

end Double

namespace Binary

variable {x y : Float} {b d : Binary}

/-- Only zero has two doubles. -/
theorem eq_of_exact (hx : ofFloat? x = some b) (hy : ofFloat? y = some d) (h : b.exact = d.exact)
    (hne : b.exact ≠ 0) : x = y := by
  have hmagnitude : b.magnitudeValue = d.magnitudeValue := by
    rw [← b.abs_exact, ← d.abs_exact, h]
  have hpos : 0 < b.magnitudeValue := by
    rw [← b.abs_exact]
    exact abs_pos.mpr hne
  have hnegative : b.negative = d.negative := by
    rw [exact_eq, exact_eq, ← hmagnitude] at h
    cases hb : b.negative <;> cases hd : d.negative <;> simp [hb, hd] at h ⊢ <;> linarith
  have hnum : 0 < b.numerator := by
    rw [← b.numerator_div_denominator] at hpos
    by_contra hzero
    rw [Nat.eq_zero_of_not_pos hzero, Nat.cast_zero, zero_div] at hpos
    exact hpos.false
  have hround (c : Binary) (hc : b.magnitudeValue = c.magnitudeValue) :
      c.Rounds ((b.numerator : ℚ) / b.denominator) := by
    rw [b.numerator_div_denominator, hc]
    exact c.rounds_magnitudeValue
  rw [← ofQuotient_eq hx hnum b.denominator_pos (hround b rfl), hnegative]
  exact ofQuotient_eq hy hnum b.denominator_pos (hround d hmagnitude)

/-- Below a number with a full mantissa the next is one unit away. -/
theorem IsDouble.le_of_lt (hb : b.IsDouble) {n j : ℤ} (hlow : 2 ^ 52 < n)
    (h : b.exact < n * 2 ^ j) : b.exact ≤ (n - 1 : ℤ) * 2 ^ j := by
  obtain ⟨m, hm, hvalue⟩ := b.exact_multiple
  rw [hvalue] at h ⊢
  have hunit : (0 : ℚ) < 2 ^ j := by positivity
  by_cases hexponent : j ≤ b.exponent
  · obtain ⟨k, hk⟩ := Cell.multiple_of_le m hexponent
    rw [hk] at h ⊢
    have hlt : k < n := by exact_mod_cast lt_of_mul_lt_mul_right h hunit.le
    have hle : (k : ℚ) ≤ (n - 1 : ℤ) := by exact_mod_cast Int.le_sub_one_of_lt hlt
    gcongr
  · have hsmall : m ≤ 2 * 2 ^ 52 := by
      have hmantissa := hb.mantissa_lt
      have := le_abs_self m
      omega
    have hle : (2 ^ 52 : ℚ) ≤ (n - 1 : ℤ) := by exact_mod_cast Int.le_sub_one_of_lt hlow
    calc (m : ℚ) * 2 ^ b.exponent ≤ (2 * 2 ^ 52 : ℤ) * 2 ^ (j - 1) :=
          mul_le_mul (by exact_mod_cast hsmall) (zpow_le_zpow_right₀ (by norm_num) (by omega))
            (by positivity) (by norm_num)
      _ = 2 ^ 52 * 2 ^ j := by
          rw [zpow_sub_one₀ (by norm_num)]
          push_cast
          ring
      _ ≤ (n - 1 : ℤ) * 2 ^ j := by gcongr

end Binary

namespace Within

variable {x y : Float} {a b c d : ℤ}

theorem exponent_le (h : Within (2 ^ a) (2 ^ b) x) : a ≤ b := by
  obtain ⟨p, -, hlow, hhigh⟩ := h
  exact (zpow_le_zpow_iff_right₀ (by norm_num : (1 : ℚ) < 2)).mp (hlow.trans hhigh)

/-- Bounds that are powers of two are multiplied by adding their exponents. -/
theorem mul_zpow (hx : Within (2 ^ a) (2 ^ b) x) (hy : Within (2 ^ c) (2 ^ d) y) {lo hi : ℤ}
    (hlow : lo ≤ a + c) (hhigh : b + d ≤ hi) (hleast : -1074 ≤ lo) (hgreatest : hi ≤ 969) :
    Within (2 ^ lo) (2 ^ hi) (x * y) := by
  have hab := hx.exponent_le
  have hcd := hy.exponent_le
  refine hx.mul hy (by positivity) (by positivity) (onGrid_zpow lo hleast (by omega))
    (onGrid_zpow hi (by omega) hgreatest) ?_ ?_ <;> rw [← zpow_add₀ (by norm_num)]
  · exact zpow_le_zpow_right₀ (by norm_num) hlow
  · exact zpow_le_zpow_right₀ (by norm_num) hhigh

theorem div_zpow (hx : Within (2 ^ a) (2 ^ b) x) (hy : Within (2 ^ c) (2 ^ d) y) {lo hi : ℤ}
    (hlow : lo ≤ a - d) (hhigh : b - c ≤ hi) (hleast : -1074 ≤ lo) (hgreatest : hi ≤ 969) :
    Within (2 ^ lo) (2 ^ hi) (x / y) := by
  have hab := hx.exponent_le
  have hcd := hy.exponent_le
  refine hx.div hy (by positivity) (by positivity) (onGrid_zpow lo hleast (by omega))
    (onGrid_zpow hi (by omega) hgreatest) ?_ ?_ <;> rw [← zpow_sub₀ (by norm_num)]
  · exact zpow_le_zpow_right₀ (by norm_num) hlow
  · exact zpow_le_zpow_right₀ (by norm_num) hhigh

theorem pos (h : Within (2 ^ a) (2 ^ b) x) : 0 < x ∧ x.isFinite = true := by
  obtain ⟨p, hp, hlow, -⟩ := h
  have hpositive : (0 : ℚ) < 2 ^ a := by positivity
  exact ⟨(Double.pos_iff hp).mpr (hpositive.trans_le hlow), Double.isFinite_of_ofFloat? hp⟩

end Within

end CohortAnalytics
