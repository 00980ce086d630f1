import CohortAnalytics.Proofs.Number.Compare
import CohortAnalytics.Proofs.Number.Negation

/-!
The order of numbers, infinities included: it is that of their positions, and what is not a number has
no place in it.
-/

namespace CohortAnalytics

open Float.Model Float.Model.UnpackedFloat

namespace Number

/-- Everything but what is not a number. -/
def isProper : Number → Bool
  | .int _ => true
  | .float x => !x.isNaN

variable {a b c : Number} {x y : Float}

theorem unpack_cases (h : isProper (.float x) = true) :
    (∃ p, Binary.ofFloat? x = some p) ∨
      (Binary.ofFloat? x = none ∧ x < 0 ∧ x.toModel.unpack = .infinity .negative ∧
        position (.float x) = ⊥) ∨
      (Binary.ofFloat? x = none ∧ ¬x < 0 ∧ x.toModel.unpack = .infinity .positive ∧
        position (.float x) = ⊤) := by
  have hproper : x.isNaN = false := by simpa [isProper] using h
  cases hx : Binary.ofFloat? x with
  | some p => exact .inl ⟨p, rfl⟩
  | none =>
    right
    rcases special_of_ofFloat?_none hx with ⟨hnan, -⟩ | ⟨-, hneg, hx'⟩ | ⟨-, hpos, hx'⟩
    · rw [hproper] at hnan
      cases hnan
    · exact .inl ⟨rfl, hneg, by rw [hx']; rfl, by simp only [position, hx, if_pos hneg]⟩
    · exact .inr ⟨rfl, hpos, by rw [hx']; rfl, by simp only [position, hx, if_neg hpos]⟩

theorem compare_unpack (hx : isProper (.float x) = true) (hy : isProper (.float y) = true) :
    x.toModel.unpack.compare y.toModel.unpack =
      some (compare (position (.float x)) (position (.float y))) := by
  rcases unpack_cases hx with ⟨p, hp⟩ | ⟨-, -, hxu, hxp⟩ | ⟨-, -, hxu, hxp⟩ <;>
    rcases unpack_cases hy with ⟨q, hq⟩ | ⟨-, -, hyu, hyp⟩ | ⟨-, -, hyu, hyp⟩
  · rw [Binary.unpack_of_ofFloat? hp, Binary.unpack_of_ofFloat? hq, position_float hp,
      position_float hq,
      Binary.compare_unpacked (Binary.isDouble_of_ofFloat? hp) (Binary.isDouble_of_ofFloat? hq)]
    congr 1
    apply compare_congr <;> norm_cast
  · rw [Binary.unpack_of_ofFloat? hp, hyu, hyp, position_float hp, p.compare_negative_infinity.2,
      compare_gt_iff_gt.mpr (WithBot.bot_lt_coe _)]
  · rw [Binary.unpack_of_ofFloat? hp, hyu, hyp, position_float hp, p.compare_positive_infinity.2,
      compare_lt_iff_lt.mpr (WithBot.coe_lt_coe.mpr (WithTop.coe_lt_top _))]
  · rw [Binary.unpack_of_ofFloat? hq, hxu, hxp, position_float hq, q.compare_negative_infinity.1,
      compare_lt_iff_lt.mpr (WithBot.bot_lt_coe _)]
  · rw [hxu, hyu, hxp, hyp, compare_eq_iff_eq.mpr rfl]
    rfl
  · rw [hxu, hyu, hxp, hyp, compare_lt_iff_lt.mpr bot_lt_top]
    rfl
  · rw [Binary.unpack_of_ofFloat? hq, hxu, hxp, position_float hq, q.compare_positive_infinity.1,
      compare_gt_iff_gt.mpr (WithBot.coe_lt_coe.mpr (WithTop.coe_lt_top _))]
  · rw [hxu, hyu, hxp, hyp, compare_gt_iff_gt.mpr bot_lt_top]
    rfl
  · rw [hxu, hyu, hxp, hyp, compare_eq_iff_eq.mpr rfl]
    rfl

theorem compareInt_eq (n : ℤ) (hx : isProper (.float x) = true) :
    compareInt n x = some (compare (position (.int n)) (position (.float x))) := by
  have hnan : x.isNaN = false := by simpa [isProper] using hx
  rcases unpack_cases hx with ⟨p, hp⟩ | ⟨hnone, hneg, -, hposition⟩ | ⟨hnone, hpos, -, hposition⟩
  · rw [compareInt_finite n hp, position_float hp]
    congr 1
    apply compare_congr <;> simp only [position] <;> norm_cast
  · simp only [compareInt, hnone, hnan, hposition, if_pos hneg, Bool.false_eq_true, if_false]
    rw [compare_gt_iff_gt.mpr (WithBot.bot_lt_coe _)]
  · simp only [compareInt, hnone, hnan, hposition, if_neg hpos, Bool.false_eq_true, if_false]
    rw [compare_lt_iff_lt.mpr (WithBot.coe_lt_coe.mpr (WithTop.coe_lt_top _))]

theorem order?_eq (ha : a.isProper = true) (hb : b.isProper = true) :
    order? a b = some (compare a.position b.position) := by
  cases a with
  | int m =>
    cases b with
    | int n =>
      rw [order?]
      congr 1
      apply compare_congr <;> simp only [position] <;> norm_cast
    | float y => exact compareInt_eq m hb
  | float x =>
    cases b with
    | int n => rw [order?, compareInt_eq n ha, Option.map_some, ← Std.OrientedCmp.eq_swap]
    | float y =>
      refine compareFloat_of_unpack (compare_unpack ha hb) ?_
      rw [compare_unpack hb ha, ← Std.OrientedCmp.eq_swap]

theorem unpack_improper (h : isProper (.float x) = false) : x.toModel.unpack = .notANumber := by
  have hnan : x.isNaN = true := by simpa [isProper] using h
  rw [eq_of_isNaN hnan]
  rfl

theorem compareFloat_improper (h : isProper (.float x) = false ∨ isProper (.float y) = false) :
    compareFloat x y = none := by
  have hnone : x.toModel.unpack.compare y.toModel.unpack = none ∧
      y.toModel.unpack.compare x.toModel.unpack = none := by
    rcases h with h | h
    · rw [unpack_improper h]
      cases y.toModel.unpack <;> exact ⟨rfl, rfl⟩
    · rw [unpack_improper h]
      cases x.toModel.unpack <;> exact ⟨rfl, rfl⟩
  simp [compareFloat, lt_iff_unpack, beq_eq_unpack, UnpackedFloat.lt, UnpackedFloat.beq, hnone]

theorem compareInt_improper (n : ℤ) (h : isProper (.float x) = false) : compareInt n x = none := by
  have hnan : x.isNaN = true := by simpa [isProper] using h
  have hnone : Binary.ofFloat? x = none := by
    cases hx : Binary.ofFloat? x with
    | none => rfl
    | some b =>
      rw [isNaN_of_ofFloat? hx] at hnan
      cases hnan
  simp only [compareInt, hnone, hnan, if_true]

theorem order?_improper (h : a.isProper = false ∨ b.isProper = false) : order? a b = none := by
  cases a with
  | int m =>
    cases b with
    | int n => simp [isProper] at h
    | float y => exact compareInt_improper m (h.resolve_left (by simp [isProper]))
  | float x =>
    cases b with
    | int n =>
      rw [order?, compareInt_improper n (h.resolve_right (by simp [isProper])), Option.map_none]
    | float y => exact compareFloat_improper h

theorem isProper_of_order? {o : Ordering} (h : order? a b = some o) :
    a.isProper = true ∧ b.isProper = true := by
  constructor
  · by_contra ha
    rw [order?_improper (.inl (by simpa using ha))] at h
    cases h
  · by_contra hb
    rw [order?_improper (.inr (by simpa using hb))] at h
    cases h

theorem lt_iff_position :
    a.lt b = true ↔ a.isProper = true ∧ b.isProper = true ∧ a.position < b.position := by
  rw [lt, beq_iff_eq]
  constructor
  · intro h
    obtain ⟨ha, hb⟩ := isProper_of_order? h
    rw [order?_eq ha hb, Option.some_inj, compare_lt_iff_lt] at h
    exact ⟨ha, hb, h⟩
  · rintro ⟨ha, hb, h⟩
    rw [order?_eq ha hb, compare_lt_iff_lt.mpr h]

theorem le_iff_position :
    a.le b = true ↔ a.isProper = true ∧ b.isProper = true ∧ a.position ≤ b.position := by
  rw [le, Bool.or_eq_true, ← lt, lt_iff_position, beq_iff_eq, le_iff_lt_or_eq]
  constructor
  · rintro (⟨ha, hb, h⟩ | h)
    · exact ⟨ha, hb, .inl h⟩
    · obtain ⟨ha, hb⟩ := isProper_of_order? h
      rw [order?_eq ha hb, Option.some_inj, compare_eq_iff_eq] at h
      exact ⟨ha, hb, .inr h⟩
  · rintro ⟨ha, hb, h | h⟩
    · exact .inl ⟨ha, hb, h⟩
    · exact .inr (by rw [order?_eq ha hb, compare_eq_iff_eq.mpr h])

theorem trans_le (hab : a.le b = true) (hbc : b.le c = true) : a.le c = true := by
  rw [le_iff_position] at *
  exact ⟨hab.1, hbc.2.1, hab.2.2.trans hbc.2.2⟩

theorem lt_of_lt_of_le (hab : a.lt b = true) (hbc : b.le c = true) : a.lt c = true := by
  rw [lt_iff_position] at *
  rw [le_iff_position] at hbc
  exact ⟨hab.1, hbc.2.1, hab.2.2.trans_le hbc.2.2⟩

theorem eqv_iff_position :
    a.eqv b = true ↔ a.isProper = true ∧ b.isProper = true ∧ a.position = b.position := by
  rw [eqv, beq_iff_eq]
  constructor
  · intro h
    obtain ⟨ha, hb⟩ := isProper_of_order? h
    rw [order?_eq ha hb, Option.some_inj, compare_eq_iff_eq] at h
    exact ⟨ha, hb, h⟩
  · rintro ⟨ha, hb, h⟩
    rw [order?_eq ha hb, compare_eq_iff_eq.mpr h]

theorem le_self_iff : a.le a = true ↔ a.isProper = true := by
  rw [le_iff_position]
  simp

/-- Of two numbers one is below the other, or it is not above. -/
theorem not_le_iff_lt (ha : a.isProper = true) (hb : b.isProper = true) :
    a.le b = false ↔ b.lt a = true := by
  rw [Bool.eq_false_iff, Ne, le_iff_position, lt_iff_position]
  simp [ha, hb]

end Number

theorem Within.isNaN {a b : ℚ} {x : Float} (h : Within a b x) : x.isNaN = false := by
  obtain ⟨p, hp, -, -⟩ := h
  exact isNaN_of_ofFloat? hp

namespace Double

variable {x y : Float}

theorem le_iff_unpack : x ≤ y ↔ x.toModel.unpack.le y.toModel.unpack = true := decide_eq_true_iff

theorem isNaN_of_le (h : x ≤ y) : x.isNaN = false := by
  by_contra hnan
  rw [le_iff_unpack, eq_of_isNaN (Bool.eq_true_of_not_eq_false hnan)] at h
  cases h

theorem isNaN_of_ge (h : x ≤ y) : y.isNaN = false := by
  by_contra hnan
  rw [le_iff_unpack, eq_of_isNaN (Bool.eq_true_of_not_eq_false hnan)] at h
  cases hx : x.toModel.unpack <;> rw [hx] at h <;> cases h

theorem isNaN_of_lt (h : x < y) : x.isNaN = false ∧ y.isNaN = false := by
  constructor <;> by_contra hnan <;>
    rw [lt_iff_unpack, eq_of_isNaN (Bool.eq_true_of_not_eq_false hnan)] at h
  · cases h
  · cases hx : x.toModel.unpack <;> rw [hx] at h <;> cases h

theorem compare_position (hx : x.isNaN = false) (hy : y.isNaN = false) :
    x.toModel.unpack.compare y.toModel.unpack =
      some (compare (Number.position (.float x)) (Number.position (.float y))) :=
  Number.compare_unpack (congrArg not hx) (congrArg not hy)

theorem lt_iff_position (hx : x.isNaN = false) (hy : y.isNaN = false) :
    x < y ↔ Number.position (.float x) < Number.position (.float y) := by
  rw [lt_iff_unpack, UnpackedFloat.lt, compare_position hx hy, beq_iff_eq, Option.some_inj,
    compare_lt_iff_lt]

theorem not_lt_zero_of_pos (hx : x.isNaN = false) (hpos : 0 < x) : ¬x < 0 := by
  rw [lt_iff_position hx rfl]
  exact lt_asymm ((lt_iff_position rfl hx).mp hpos)

theorem beq_iff_position (hx : x.isNaN = false) (hy : y.isNaN = false) :
    (x == y) = true ↔ Number.position (.float x) = Number.position (.float y) := by
  rw [beq_eq_unpack, UnpackedFloat.beq, compare_position hx hy, beq_iff_eq, Option.some_inj,
    compare_eq_iff_eq]

theorem le_iff_position (hx : x.isNaN = false) (hy : y.isNaN = false) :
    x ≤ y ↔ Number.position (.float x) ≤ Number.position (.float y) := by
  rw [le_iff_unpack, UnpackedFloat.le, compare_position hx hy, Option.any_some, Ordering.isLE_iff_ne_gt]
  exact compare_le_iff_le

theorem not_le_of_lt (hx : x.isNaN = false) (hy : y.isNaN = false) (h : x < y) : ¬y ≤ x := by
  rw [le_iff_position hy hx]
  exact not_le_of_gt ((lt_iff_position hx hy).mp h)

theorem lt_of_le_of_lt {z : Float} (hxy : x ≤ y) (hyz : y < z) : x < z := by
  have hx := isNaN_of_le hxy
  obtain ⟨hy, hz⟩ := isNaN_of_lt hyz
  rw [le_iff_position hx hy] at hxy
  rw [lt_iff_position hy hz] at hyz
  exact (lt_iff_position hx hz).mpr (hxy.trans_lt hyz)

theorem lt_of_lt_of_le {z : Float} (hxy : x < y) (hyz : y ≤ z) : x < z := by
  obtain ⟨hx, hy⟩ := isNaN_of_lt hxy
  have hz := isNaN_of_ge hyz
  rw [lt_iff_position hx hy] at hxy
  rw [le_iff_position hy hz] at hyz
  exact (lt_iff_position hx hz).mpr (hxy.trans_le hyz)

end Double

theorem Number.le_float {x y : Float} : (Number.float x).le (.float y) = true ↔ x ≤ y := by
  rw [le_iff_position]
  constructor
  · rintro ⟨hx, hy, h⟩
    exact (Double.le_iff_position (by simpa [isProper] using hx) (by simpa [isProper] using hy)).mpr h
  · intro h
    have hx := Double.isNaN_of_le h
    have hy := Double.isNaN_of_ge h
    exact ⟨congrArg not hx, congrArg not hy, (Double.le_iff_position hx hy).mp h⟩

theorem Number.lt_float {x y : Float} : (Number.float x).lt (.float y) = true ↔ x < y := by
  rw [lt_iff_position]
  constructor
  · rintro ⟨hx, hy, h⟩
    exact (Double.lt_iff_position (by simpa [isProper] using hx) (by simpa [isProper] using hy)).mpr h
  · intro h
    obtain ⟨hx, hy⟩ := Double.isNaN_of_lt h
    exact ⟨congrArg not hx, congrArg not hy, (Double.lt_iff_position hx hy).mp h⟩

/-- A whole number that is a double is compared as one. -/
theorem Number.compare_whole {n : ℤ} {y : Float} {d : Binary} (hy : Binary.ofFloat? y = some d)
    (hn : d.exact = n) (x : Float) : ((Number.int n).lt (.float x) = true ↔ y < x) ∧
      ((Number.float x).lt (.int n) = true ↔ x < y) ∧ ((Number.float x).le (.int n) = true ↔ x ≤ y) := by
  have hproper : isProper (.int n) = isProper (.float y) := (congrArg not (isNaN_of_ofFloat? hy)).symm
  have hposition : position (.int n) = position (.float y) := by
    rw [position_float hy, hn]
    rfl
  rw [← lt_float, ← lt_float, ← le_float, lt_iff_position, lt_iff_position, lt_iff_position,
    lt_iff_position, le_iff_position, le_iff_position, hproper, hposition]
  exact ⟨Iff.rfl, Iff.rfl, Iff.rfl⟩

theorem Within.lt {a b c d : ℚ} {x y : Float} (hx : Within a b x) (hy : Within c d y) (h : b < c) :
    x < y := by
  obtain ⟨p, hp, -, hxb⟩ := hx
  obtain ⟨q, hq, hcy, -⟩ := hy
  rw [lt_iff_exact hp hq]
  exact hxb.trans_lt (h.trans_le hcy)

namespace Double

variable {a t u w x y : Float} {b p : Binary}

theorem within_of_not_lt_abs (ha : Binary.ofFloat? a = some p) (hy : y.isNaN = false)
    (h : ¬a < y.abs) : Within (-p.exact) p.exact y := by
  have habs : ¬Number.position (.float a) < Number.position (.float y.abs) := by
    rwa [← lt_iff_position (isNaN_of_ofFloat? ha) (by rwa [isNaN_abs])]
  cases hfinite : Binary.ofFloat? y with
  | some b =>
    rw [Number.position_float ha, Number.position_float (Binary.ofFloat?_abs hfinite), not_lt,
      Binary.exact_of_positive rfl] at habs
    have hle : |b.exact| ≤ p.exact := by
      rw [b.abs_exact]
      exact_mod_cast habs
    exact ⟨b, hfinite, (abs_le.mp hle).1, (abs_le.mp hle).2⟩
  | none =>
    have hinfinite : Number.position (.float y.abs) = ⊤ := by
      rcases special_of_ofFloat?_none hfinite with ⟨hnan, -⟩ | ⟨-, -, rfl⟩ | ⟨-, -, rfl⟩
      · rw [hy] at hnan
        cases hnan
      · rfl
      · rfl
    rw [hinfinite, Number.position_float ha] at habs
    exact absurd (WithBot.coe_lt_coe.mpr (WithTop.coe_lt_top _)) habs

theorem not_lt_pack {f : UnpackedFloat} (hf : f = .notANumber ∨ f = .infinity .negative) :
    ¬x < ⟨Float.Model.pack f⟩ := by
  have hunpack : (Float.Model.pack f).unpack = f := by
    rcases hf with rfl | rfl <;> rfl
  rw [lt_iff_unpack]
  change ¬x.toModel.unpack.lt (Float.Model.pack f).unpack = true
  rw [hunpack]
  rcases hf with rfl | rfl <;> cases x.toModel.unpack with
  | notANumber => exact Bool.false_ne_true
  | _ s => cases s <;> exact Bool.false_ne_true

/-- What is not above a number of the grid is not when something that is not positive is added either:
a rounding does not lead across the grid, and what is infinite stays below or is no number. -/
theorem not_lt_add (hu : Binary.ofFloat? u = some b) (hgrid : OnGrid b.exact) (ht : ¬u < t)
    (hw : ¬0 < w) : ¬u < t + w := by
  have hsum : t + w = ⟨Float.Model.pack (UnpackedFloat.add Format.binary64 t.toModel.unpack
    w.toModel.unpack)⟩ := rfl
  cases hwf : Binary.ofFloat? w with
  | none =>
    rw [hsum]
    rw [lt_iff_unpack] at hw
    apply not_lt_pack
    rcases Binary.unpack_of_ofFloat?_none hwf with h | ⟨_ | _, h⟩ <;> rw [h] at hw ⊢
    · left
      cases t.toModel.unpack <;> rfl
    · cases t.toModel.unpack with
      | infinity s =>
        cases s
        · exact .inr rfl
        · exact .inl rfl
      | notANumber => exact .inl rfl
      | _ => exact .inr rfl
    · exact absurd rfl hw
  | some d =>
    cases htf : Binary.ofFloat? t with
    | none =>
      rw [hsum]
      rw [lt_iff_unpack, Binary.unpack_of_ofFloat? hu] at ht
      apply not_lt_pack
      rcases Binary.unpack_of_ofFloat?_none htf with h | ⟨_ | _, h⟩ <;> rw [h] at ht ⊢
      · left
        cases w.toModel.unpack <;> rfl
      · right
        rw [Binary.unpack_of_ofFloat? hwf, Binary.unpacked]
        split_ifs <;> rfl
      · rw [UnpackedFloat.lt, b.compare_positive_infinity.2] at ht
        exact absurd rfl ht
    | some c =>
      have hsmall : c.exact + d.exact ≤ b.exact := by
        rw [lt_iff_exact hu htf, not_lt] at ht
        rw [lt_iff_exact Binary.ofFloat?_zero hwf, not_lt,
          show (⟨false, 0, -1074⟩ : Binary).exact = 0 from Binary.exact_zero rfl] at hw
        linarith
      have hnearby := Binary.add_nearby htf hwf
      rw [lt_iff_position (isNaN_of_ofFloat? hu) hnearby.isNaN, Number.position_float hu]
      exact not_lt.mpr (hnearby.below _ hgrid hsmall)

end Double

end CohortAnalytics
