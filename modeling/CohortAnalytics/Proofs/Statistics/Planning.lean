import CohortAnalytics.Proofs.Number.Finite
import CohortAnalytics.Proofs.Results
import CohortAnalytics.Proofs.Statistics.Curve
import CohortAnalytics.Statistics.SampleSize

/-!
How far planning can be relied on. A size and a number of days are the ceilings of quotients of doubles,
and guidance exactly where these quotients are positive and finite. They are for moderate inputs, and are
not at the ends of the range of doubles.
-/

namespace CohortAnalytics

variable {curve : NormalCurve} {baseline effect confidence power visitors raw x : Float}
  {variants : ℤ}

/-- What a planner can do something with: no answer, or a positive integer. -/
def IsGuidance (r : Except SizeError (Option ℤ)) : Prop := r = .ok none ∨ ∃ n > 0, r = .ok (some n)

/-- The inputs that a size is asked for. An effect that is no number is not refused. -/
structure SizeAsked (baseline effect confidence power : Float) : Prop where
  baseline : 0 < baseline ∧ baseline < 1
  effect : ¬effect ≤ 0
  confidence : 0 < confidence ∧ confidence < 100
  power : 0 < power ∧ power < 1

structure DaysAsked (visitors baseline effect : Float) (variants : ℤ) (confidence : Float) : Prop where
  visitors : ¬visitors ≤ 0
  variants : 2 ≤ variants
  size : SizeAsked baseline effect confidence 0.8

/-- What a size is the ceiling of. -/
def rawSize (curve : NormalCurve) (baseline effect confidence power : Float) : Float :=
  let z := curve.quantile (1 - (1 - confidence / 100) / 2) + curve.quantile power
  z * z * 2 * baseline * (1 - baseline) / (baseline * effect * (baseline * effect))

/-- What a number of days is the ceiling of, if the users have a double. -/
def rawDays? (curve : NormalCurve) (visitors baseline effect : Float) (variants : ℤ)
    (confidence : Float) : Option Float := do
  let users ← ceilFloat? (rawSize curve baseline effect confidence 0.8)
  return (← Binary.ofInt? (users * variants)) / visitors

/-- A result that is left out unless it is asked for, and is guidance then exactly if what it is the
ceiling of is there, positive and finite. -/
structure SizedBy (asked : Prop) (raw? : Option Float) (r : Except SizeError (Option ℤ)) : Prop where
  none_iff : r = .ok none ↔ ¬asked
  guidance_iff : IsGuidance r ↔ (asked → ∃ x, raw? = some x ∧ 0 < x ∧ x.isFinite = true)

namespace SizedBy

variable {asked : Prop} {raw? : Option Float} {r : Except SizeError (Option ℤ)}

theorem of_asked (hasked : asked) (hsome : r ≠ .ok none)
    (h : (∃ n > 0, r = .ok (some n)) ↔ ∃ x, raw? = some x ∧ 0 < x ∧ x.isFinite = true) :
    SizedBy asked raw? r := by
  refine ⟨iff_of_false hsome (not_not.mpr hasked), ?_⟩
  simp only [IsGuidance, hsome, false_or, hasked, true_implies]
  exact h

theorem of_not_asked (hasked : ¬asked) (hnone : r = .ok none) : SizedBy asked raw? r :=
  ⟨iff_of_true hnone hasked, iff_of_true (.inl hnone) fun h => absurd h hasked⟩

theorem positive (h : SizedBy asked raw? r) (hasked : asked)
    (hraw : ∃ x, raw? = some x ∧ 0 < x ∧ x.isFinite = true) : ∃ n > 0, r = .ok (some n) :=
  (h.guidance_iff.mpr fun _ => hraw).resolve_left fun hnone => h.none_iff.mp hnone hasked

end SizedBy

section Guards

theorem isBetween_zero_one : isBetween (.int 0) (.float x) (.int 1) = true ↔ 0 < x ∧ x < 1 := by
  have hzero := (Number.compare_whole (n := 0) Binary.ofFloat?_zero
    ((Binary.exact_zero rfl).trans Int.cast_zero.symm) x).1
  have hone := (Number.compare_whole (n := 1) (y := 1) (d := ⟨false, 2 ^ 52, -52⟩) (by decide)
    (by norm_num [Binary.exact_eq, Binary.magnitudeValue]) x).2.1
  rw [isBetween, Bool.and_eq_true, hzero, hone]

theorem isBetween_zero_hundred : isBetween (.int 0) (.float x) (.int 100) = true ↔ 0 < x ∧ x < 100 := by
  have hzero := (Number.compare_whole (n := 0) Binary.ofFloat?_zero
    ((Binary.exact_zero rfl).trans Int.cast_zero.symm) x).1
  have hhundred := (Number.compare_whole (n := 100) (y := 100) (d := ⟨false, 100 * 2 ^ 46, -46⟩)
    (by decide) (by norm_num [Binary.exact_eq, Binary.magnitudeValue]) x).2.1
  rw [isBetween, Bool.and_eq_true, hzero, hhundred]

theorem le_zero_iff : (Number.float x).le (.int 0) = true ↔ x ≤ 0 :=
  (Number.compare_whole (n := 0) Binary.ofFloat?_zero
    ((Binary.exact_zero rfl).trans Int.cast_zero.symm) x).2.2

theorem minimumSampleSize_of_asked (h : SizeAsked baseline effect confidence power) :
    minimumSampleSize curve (.float baseline) (.float effect) (.float confidence) (.float power) =
      some <$> sampleSize curve baseline effect confidence power := by
  obtain ⟨hbaseline, heffect, hconfidence, hpower⟩ := h
  rw [← isBetween_zero_one] at hbaseline hpower
  rw [← isBetween_zero_hundred] at hconfidence
  rw [← le_zero_iff, Bool.not_eq_true] at heffect
  rw [minimumSampleSize, hbaseline, heffect, hconfidence, hpower]
  rfl

theorem minimumSampleSize_of_not_asked (h : ¬SizeAsked baseline effect confidence power) :
    minimumSampleSize curve (.float baseline) (.float effect) (.float confidence) (.float power) =
      .ok none := by
  rw [minimumSampleSize]
  split_ifs with hfirst hsecond
  · rfl
  · rfl
  · simp only [Bool.or_eq_true, Bool.not_eq_true', not_or, Bool.not_eq_false] at hfirst hsecond
    rw [isBetween_zero_one, le_zero_iff] at hfirst
    rw [isBetween_zero_one, isBetween_zero_hundred] at hsecond
    exact absurd ⟨hfirst.1, hfirst.2, hsecond.1, hsecond.2⟩ h

end Guards

section Ceilings

variable {n : ℤ}

theorem ceilSize_ok_iff : ceilSize x = .ok n ↔ ceilFloat? x = some n := by
  rw [ceilSize]
  cases ceilFloat? x with
  | none => exact iff_of_false nofun nofun
  | some m => exact ⟨fun h => congrArg some (Except.ok.inj h), fun h => congrArg Except.ok (Option.some.inj h)⟩

theorem ceilSize_of_isNaN (h : x.isNaN = true) : ceilSize x = .error .notANumber := by
  rw [eq_of_isNaN h]
  decide

theorem sampleSize_eq : sampleSize curve baseline effect confidence power =
    if (baseline * effect).isFinite && (baseline * effect * (baseline * effect)).isInf then
      .error .beyondRange
    else ceilSize (rawSize curve baseline effect confidence power) := by
  rw [sampleSize, squareSize]
  split_ifs <;> rfl

theorem ceilFloat?_of_sampleSize (h : sampleSize curve baseline effect confidence power = .ok n) :
    ceilFloat? (rawSize curve baseline effect confidence power) = some n := by
  rw [sampleSize_eq] at h
  split_ifs at h
  exact ceilSize_ok_iff.mp h

/-- A square beyond every double would make the quotient zero. -/
theorem sampleSize_of_pos (hpos : 0 < rawSize curve baseline effect confidence power)
    (h : ceilFloat? (rawSize curve baseline effect confidence power) = some n) :
    sampleSize curve baseline effect confidence power = .ok n := by
  have hsquare := Double.isFinite_of_pos_div hpos
  rw [sampleSize_eq, Double.isInf_of_isFinite hsquare, Bool.and_false, if_neg Bool.false_ne_true]
  exact ceilSize_ok_iff.mpr h

theorem sizedBy_minimumSampleSize (curve : NormalCurve) (baseline effect confidence power : Float) :
    SizedBy (SizeAsked baseline effect confidence power)
      (some (rawSize curve baseline effect confidence power))
      (minimumSampleSize curve (.float baseline) (.float effect) (.float confidence)
        (.float power)) := by
  by_cases hasked : SizeAsked baseline effect confidence power
  · rw [minimumSampleSize_of_asked hasked]
    apply SizedBy.of_asked hasked
    · cases sampleSize curve baseline effect confidence power <;> nofun
    simp only [Option.some.injEq, exists_eq_left']
    rw [← Double.ceilFloat?_pos_iff]
    constructor
    · rintro ⟨n, hn, hsize⟩
      obtain ⟨m, hm, heq⟩ := map_ok hsize
      obtain rfl := Option.some.inj heq
      exact ⟨m, hn, ceilFloat?_of_sampleSize hm⟩
    · rintro ⟨n, hn, hceil⟩
      have hpos := (Double.ceilFloat?_pos_iff.mp ⟨n, hn, hceil⟩).1
      exact ⟨n, hn, by rw [sampleSize_of_pos hpos hceil]; rfl⟩
  · exact .of_not_asked hasked (minimumSampleSize_of_not_asked hasked)

end Ceilings

section Days

theorem daysFor_ok_iff {users : ℤ} : daysFor users (.float visitors) = .ok x ↔
    ∃ d, Binary.ofInt? users = some d ∧ d / visitors = x := by
  rw [daysFor, realSize, Number.toFloat?]
  cases Binary.ofInt? users with
  | none =>
    constructor
    · intro h
      cases h
    · rintro ⟨d, hd, -⟩
      cases hd
  | some d =>
    constructor
    · intro h
      exact ⟨d, rfl, Except.ok.inj h⟩
    · rintro ⟨_, hd, rfl⟩
      rw [Option.some.inj hd]
      rfl

theorem daysToSignificance_of_asked (h : DaysAsked visitors baseline effect variants confidence) :
    daysToSignificance curve (.float visitors) (.float baseline) (.float effect) variants
        (.float confidence) =
      sampleSize curve baseline effect confidence 0.8 >>= fun users =>
        daysFor (users * variants) (.float visitors) >>= fun days => some <$> ceilSize days := by
  have hvisitors : (Number.float visitors).le (.int 0) = false := by
    rw [← Bool.not_eq_true, le_zero_iff]
    exact h.visitors
  have hvariants : decide (variants < 2) = false := decide_eq_false (not_lt.mpr h.variants)
  rw [daysToSignificance, hvisitors, hvariants, defaultPower, minimumSampleSize_of_asked h.size]
  cases sampleSize curve baseline effect confidence 0.8 <;> rfl

theorem daysToSignificance_of_not_asked
    (h : ¬DaysAsked visitors baseline effect variants confidence) :
    daysToSignificance curve (.float visitors) (.float baseline) (.float effect) variants
      (.float confidence) = .ok none := by
  rw [daysToSignificance]
  split_ifs with hguard
  · rfl
  · simp only [Bool.or_eq_true, not_or, le_zero_iff, decide_eq_true_eq, not_lt] at hguard
    rw [defaultPower, minimumSampleSize_of_not_asked fun hsize => h ⟨hguard.1, hguard.2, hsize⟩]
    rfl

theorem lt_of_not_le {y : Float} (hx : x.isNaN = false) (hy : y.isNaN = false) (h : ¬x ≤ y) : y < x := by
  rw [Double.le_iff_position hx hy, not_le] at h
  exact (Double.lt_iff_position hy hx).mpr h

/-- A quotient by a positive number is positive only for a positive number. -/
theorem pos_of_pos_div {m : ℤ} {d : Float} (hd : Binary.ofInt? m = some d) (hvisitors : ¬visitors ≤ 0)
    (hpos : 0 < d / visitors) (hfinite : (d / visitors).isFinite = true) : 0 < m := by
  obtain ⟨b, hb⟩ := Double.isFinite_iff.mp (Double.isFinite_of_pos_div hpos)
  obtain ⟨c, hc⟩ := Double.isFinite_iff.mp (Double.isFinite_of_div hfinite).1
  have hbpos := (Double.pos_iff hb).mp (lt_of_not_le (isNaN_of_ofFloat? hb) rfl hvisitors)
  by_contra hm
  have hbelow := (Binary.ofInt?_nearby hd).below 0 onGrid_zero (by exact_mod_cast not_lt.mp hm)
  rw [Number.position_float hc] at hbelow
  have hquotient : c.exact / b.exact ≤ 0 :=
    div_nonpos_of_nonpos_of_nonneg (by exact_mod_cast hbelow) hbpos.le
  obtain ⟨q, hq⟩ := Double.isFinite_iff.mp hfinite
  have hle := (Binary.div_nearby hc hb hbpos.ne').below 0 onGrid_zero hquotient
  rw [Number.position_float hq] at hle
  exact absurd ((Double.pos_iff hq).mp hpos) (not_lt.mpr (by exact_mod_cast hle))

theorem rawDays?_eq_some :
    rawDays? curve visitors baseline effect variants confidence = some x ↔
      ∃ users d, ceilFloat? (rawSize curve baseline effect confidence 0.8) = some users ∧
        Binary.ofInt? (users * variants) = some d ∧ d / visitors = x := by
  simp [rawDays?, Option.bind_eq_some_iff]

/-- Only a size that is positive itself leads to a positive number of days. -/
theorem rawSize_of_rawDays (hasked : DaysAsked visitors baseline effect variants confidence)
    {users : ℤ} {d : Float} (husers : ceilFloat? (rawSize curve baseline effect confidence 0.8) = some users)
    (hd : Binary.ofInt? (users * variants) = some d) (hpos : 0 < d / visitors)
    (hfinite : (d / visitors).isFinite = true) :
    0 < rawSize curve baseline effect confidence 0.8 ∧
      (rawSize curve baseline effect confidence 0.8).isFinite = true := by
  have hproduct := pos_of_pos_div hd hasked.visitors hpos hfinite
  have hvariants : 0 ≤ variants := (by norm_num : (0 : ℤ) ≤ 2).trans hasked.variants
  exact Double.ceilFloat?_pos_iff.mp ⟨users, pos_of_mul_pos_left hproduct hvariants, husers⟩

theorem sizedBy_daysToSignificance (curve : NormalCurve) (visitors baseline effect : Float)
    (variants : ℤ) (confidence : Float) :
    SizedBy (DaysAsked visitors baseline effect variants confidence)
      (rawDays? curve visitors baseline effect variants confidence)
      (daysToSignificance curve (.float visitors) (.float baseline) (.float effect) variants
        (.float confidence)) := by
  by_cases hasked : DaysAsked visitors baseline effect variants confidence
  · rw [daysToSignificance_of_asked hasked]
    apply SizedBy.of_asked hasked
    · intro h
      obtain ⟨users, -, h⟩ := bind_ok h
      obtain ⟨days, -, h⟩ := bind_ok h
      obtain ⟨n, -, h⟩ := map_ok h
      cases h
    constructor
    · rintro ⟨n, hn, hdays⟩
      obtain ⟨users, husers, hdays⟩ := bind_ok hdays
      obtain ⟨quotient, hquotient, hdays⟩ := bind_ok hdays
      obtain ⟨m, hm, heq⟩ := map_ok hdays
      obtain rfl := Option.some.inj heq
      obtain ⟨d, hd, rfl⟩ := daysFor_ok_iff.mp hquotient
      exact ⟨_, rawDays?_eq_some.mpr ⟨users, d, ceilFloat?_of_sampleSize husers, hd, rfl⟩,
        Double.ceilFloat?_pos_iff.mp ⟨m, hn, ceilSize_ok_iff.mp hm⟩⟩
    · rintro ⟨x, hraw, hpos, hfinite⟩
      obtain ⟨users, d, husers, hd, rfl⟩ := rawDays?_eq_some.mp hraw
      have hsize := sampleSize_of_pos (rawSize_of_rawDays hasked husers hd hpos hfinite).1 husers
      obtain ⟨n, hn, hceil⟩ := Double.ceilFloat?_pos_iff.mpr ⟨hpos, hfinite⟩
      refine ⟨n, hn, ?_⟩
      rw [ok_bind hsize, ok_bind (daysFor_ok_iff.mpr ⟨d, hd, rfl⟩), ceilSize_ok_iff.mpr hceil]
      rfl
  · exact .of_not_asked hasked (daysToSignificance_of_not_asked hasked)

end Days

section Extremes

theorem ofFloat?_hundred : Binary.ofFloat? 100 = some ⟨false, 100 * 2 ^ 46, -46⟩ := by decide

theorem exact_hundred : Binary.exact ⟨false, 100 * 2 ^ 46, -46⟩ = (100 * 2 ^ 46 : ℤ) * 2 ^ (-46 : ℤ) := by
  norm_num [Binary.exact_eq, Binary.magnitudeValue]

/-- The last double below a hundred. -/
theorem ofFloat?_last : Binary.ofFloat? 99.99999999999999 = some ⟨false, 100 * 2 ^ 46 - 1, -46⟩ := by
  decide

theorem exact_last :
    Binary.exact ⟨false, 100 * 2 ^ 46 - 1, -46⟩ = (100 * 2 ^ 46 - 1 : ℤ) * 2 ^ (-46 : ℤ) := by
  norm_num [Binary.exact_eq, Binary.magnitudeValue]

/-- What makes a size of these inputs unusable, whatever the others are. -/
def IsExtreme (baseline effect confidence : Float) : Prop :=
  effect.isFinite = false ∨ (baseline * effect * (baseline * effect)).isFinite = false ∨
    (baseline * effect * (baseline * effect) == 0) = true ∨ 99.99999999999999 ≤ confidence

theorem quantile_of_last (hcurve : curve.HasQuantiles) (hlast : 99.99999999999999 ≤ confidence)
    (hlt : confidence < 100) : (curve.quantile (1 - (1 - confidence / 100) / 2)).isFinite = false := by
  have hvalue : confidence = 99.99999999999999 := by
    obtain ⟨b, hb, hge, hb100⟩ := Double.exists_between ofFloat?_last ofFloat?_hundred hlast hlt
    rw [exact_hundred] at hb100
    have hle := (Binary.isDouble_of_ofFloat? hb).le_of_lt (by norm_num) hb100
    rw [← exact_last] at hle
    refine Binary.eq_of_exact hb ofFloat?_last (le_antisymm hle hge) (ne_of_gt ?_)
    refine lt_of_lt_of_le ?_ hge
    rw [exact_last]
    norm_num
  have hwhole : (1 : Float) - (1 - 99.99999999999999 / 100) / 2 = 1.0 := by decide
  rw [hvalue, hwhole, hcurve.one]
  decide

theorem rawSize_of_extreme (hcurve : curve.HasQuantiles) (hlt : confidence < 100)
    (h : IsExtreme baseline effect confidence) :
    ¬(0 < rawSize curve baseline effect confidence power ∧
      (rawSize curve baseline effect confidence power).isFinite = true) := by
  rintro ⟨hpos, hfinite⟩
  have hsquare := Double.isFinite_of_pos_div hpos
  obtain ⟨hproduct, hnonzero⟩ := Double.isFinite_of_div hfinite
  rcases h with heffect | hbeyond | hzero | hlast
  · have := (Double.isFinite_of_mul (Double.isFinite_of_mul hsquare).1).2
    rw [heffect] at this
    cases this
  · rw [hbeyond] at hsquare
    cases hsquare
  · rw [hzero] at hnonzero
    cases hnonzero
  · -- the quantile is a part of the product
    have hz := (Double.isFinite_of_mul (Double.isFinite_of_mul (Double.isFinite_of_mul
      (Double.isFinite_of_mul hproduct).1).1).1).1
    have hquantile := (Double.isFinite_of_add hz).1
    rw [quantile_of_last hcurve hlast hlt] at hquantile
    cases hquantile

theorem rawDays?_of_extreme (hcurve : curve.HasQuantiles)
    (hasked : DaysAsked visitors baseline effect variants confidence)
    (h : visitors.isFinite = false ∨ IsExtreme baseline effect confidence) :
    ¬∃ x, rawDays? curve visitors baseline effect variants confidence = some x ∧
      0 < x ∧ x.isFinite = true := by
  rintro ⟨x, hraw, hpos, hfinite⟩
  obtain ⟨users, d, husers, hd, rfl⟩ := rawDays?_eq_some.mp hraw
  rcases h with hvisitors | hextreme
  · rw [Double.isFinite_of_pos_div hpos] at hvisitors
    cases hvisitors
  · exact rawSize_of_extreme hcurve hasked.size.confidence.2 hextreme
      (rawSize_of_rawDays hasked husers hd hpos hfinite)

theorem minimumSampleSize_of_isNaN (h : SizeAsked baseline effect confidence power)
    (hnan : effect.isNaN = true) : minimumSampleSize curve (.float baseline) (.float effect)
      (.float confidence) (.float power) = .error .notANumber := by
  have hgain := Double.isNaN_mul (x := baseline) (.inr hnan)
  have hsquare := Double.isNaN_mul (y := baseline * effect) (.inl hgain)
  have hinfinite : ¬(baseline * effect).isFinite = true := fun hfinite => by
    rw [Double.isNaN_of_isFinite hfinite] at hgain
    cases hgain
  rw [minimumSampleSize_of_asked h, sampleSize_eq, Bool.eq_false_of_not_eq_true hinfinite,
    Bool.false_and, if_neg Bool.false_ne_true, rawSize, ceilSize_of_isNaN (Double.isNaN_div hsquare)]
  rfl

theorem not_isGuidance_of_extreme (hcurve : curve.HasQuantiles)
    (hasked : SizeAsked baseline effect confidence power)
    (h : IsExtreme baseline effect confidence) : ¬IsGuidance (minimumSampleSize curve
      (.float baseline) (.float effect) (.float confidence) (.float power)) := by
  intro hguidance
  obtain ⟨x, hx, hpos, hfinite⟩ :=
    (sizedBy_minimumSampleSize curve baseline effect confidence power).guidance_iff.mp hguidance hasked
  obtain rfl := Option.some.inj hx
  exact rawSize_of_extreme hcurve hasked.confidence.2 h ⟨hpos, hfinite⟩

theorem not_isGuidance_days_of_extreme (hcurve : curve.HasQuantiles)
    (hasked : DaysAsked visitors baseline effect variants confidence)
    (h : visitors.isFinite = false ∨ IsExtreme baseline effect confidence) :
    ¬IsGuidance (daysToSignificance curve (.float visitors) (.float baseline) (.float effect) variants
      (.float confidence)) := fun hguidance =>
  rawDays?_of_extreme hcurve hasked h ((sizedBy_daysToSignificance curve visitors baseline effect
    variants confidence).guidance_iff.mp hguidance hasked)

end Extremes

section Moderate

/-- Inputs well inside of the range of doubles. -/
structure IsModerate (baseline effect confidence power : Float) : Prop where
  baseline : Within (2 ^ (-100 : ℤ)) (2 ^ (0 : ℤ)) baseline ∧ baseline < 1
  effect : Within (2 ^ (-100 : ℤ)) (2 ^ (100 : ℤ)) effect
  confidence : 0 < confidence ∧ confidence < 99.99999999999999
  power : 0.5 < power ∧ power < 1

theorem IsModerate.asked (h : IsModerate baseline effect confidence power) :
    SizeAsked baseline effect confidence power where
  baseline := ⟨h.baseline.1.pos.1, h.baseline.2⟩
  effect := Double.not_le_of_lt rfl h.effect.isNaN h.effect.pos.1
  confidence := ⟨h.confidence.1, Double.lt_of_lt_of_le h.confidence.2 (by decide)⟩
  power := ⟨Double.lt_of_le_of_lt (by decide) h.power.1, h.power.2⟩

theorem ofFloat?_unit : Binary.ofFloat? 1 = some ⟨false, 2 ^ 52, -52⟩ := by decide

theorem exact_unit : Binary.exact ⟨false, 2 ^ 52, -52⟩ = (2 ^ 53 : ℤ) * 2 ^ (-53 : ℤ) := by
  norm_num [Binary.exact_eq, Binary.magnitudeValue]

theorem le_before_one {b : Binary} (hx : Binary.ofFloat? x = some b) (h : x < 1) :
    b.exact ≤ 1 - 2 ^ (-53 : ℤ) := by
  rw [lt_iff_exact hx ofFloat?_unit, exact_unit] at h
  have hle := (Binary.isDouble_of_ofFloat? hx).le_of_lt (by norm_num) h
  refine hle.trans (le_of_eq ?_)
  norm_num

theorem onGrid_before_one : OnGrid (1 - 2 ^ (-53 : ℤ)) :=
  ⟨2 ^ 53 - 1, -53, by norm_num, by norm_num, by norm_num, by norm_num⟩

theorem within_two_zpow : Within (2 ^ (1 : ℤ)) (2 ^ (1 : ℤ)) 2 := by
  simpa using Within.two

theorem within_tail (hpos : 0 < confidence) (hlt : confidence < 99.99999999999999) :
    Within (1 / 2) (1 - 2 ^ (-53 : ℤ)) (1 - (1 - confidence / 100) / 2) := by
  obtain ⟨b, hb, -, hlast⟩ := Double.exists_between Binary.ofFloat?_zero ofFloat?_last
    (Double.le_of_lt hpos) hlt
  rw [exact_last] at hlast
  have hle := (Binary.isDouble_of_ofFloat? hb).le_of_lt (by norm_num) hlast
  have hconfidence : Within 0 ((100 * 2 ^ 46 - 1 - 1 : ℤ) * 2 ^ (-46 : ℤ)) confidence :=
    ⟨b, hb, ((Double.pos_iff hb).mp hpos).le, hle⟩
  have hgrid : OnGrid (1 - 2 ^ (-52 : ℤ)) :=
    ⟨2 ^ 52 - 1, -52, by norm_num, by norm_num, by norm_num, by norm_num⟩
  have hshare : Within 0 (1 - 2 ^ (-52 : ℤ)) (confidence / 100) :=
    hconfidence.div Within.hundred le_rfl (by norm_num) onGrid_zero hgrid (by norm_num) (by norm_num)
  have hrest : Within (2 ^ (-52 : ℤ)) (2 ^ (0 : ℤ)) (1 - confidence / 100) :=
    Within.one.sub hshare (onGrid_zpow _ (by norm_num) (by norm_num))
      (onGrid_zpow _ (by norm_num) (by norm_num)) (by norm_num) (by norm_num)
  have hhalf : Within (2 ^ (-53 : ℤ)) (2 ^ (-1 : ℤ)) ((1 - confidence / 100) / 2) :=
    hrest.div_zpow within_two_zpow (by norm_num) (by norm_num) (by norm_num) (by norm_num)
  exact Within.one.sub hhalf (by simpa using onGrid_zpow (-1) (by norm_num) (by norm_num))
    onGrid_before_one (by norm_num) (by norm_num)

theorem within_quantiles (hcurve : curve.HasQuantiles)
    (h : IsModerate baseline effect confidence power) : Within (2 ^ (-113 : ℤ)) (2 ^ (7 : ℤ))
      (curve.quantile (1 - (1 - confidence / 100) / 2) + curve.quantile power) := by
  have hconfidence : Within 0 64 (curve.quantile (1 - (1 - confidence / 100) / 2)) := by
    obtain ⟨b, hb, hge, hle⟩ := within_tail h.confidence.1 h.confidence.2
    exact hcurve.upper hb hge (hle.trans_lt (by norm_num))
  have hpower : Within (2 ^ (-113 : ℤ)) 64 (curve.quantile power) := by
    have hhalf : Binary.ofFloat? 0.5 = some ⟨false, 2 ^ 52, -53⟩ := by decide
    have hexact : Binary.exact ⟨false, 2 ^ 52, -53⟩ = 1 / 2 := by
      norm_num [Binary.exact_eq, Binary.magnitudeValue]
    obtain ⟨b, hb, -, hlt⟩ := Double.exists_between hhalf ofFloat?_unit
      (Double.le_of_lt h.power.1) h.power.2
    have hgt := (lt_iff_exact hhalf hb).mp h.power.1
    rw [hexact] at hgt
    rw [exact_unit] at hlt
    exact hcurve.above hb hgt (hlt.trans_eq (by norm_num))
  exact hconfidence.add hpower (onGrid_zpow _ (by norm_num) (by norm_num))
    (onGrid_zpow _ (by norm_num) (by norm_num)) (by norm_num) (by norm_num)

theorem within_rawSize (hcurve : curve.HasQuantiles)
    (h : IsModerate baseline effect confidence power) :
    Within (2 ^ (-578 : ℤ)) (2 ^ (415 : ℤ)) (rawSize curve baseline effect confidence power) := by
  obtain ⟨hbaseline, hlt⟩ := h.baseline
  have hrest : Within (2 ^ (-53 : ℤ)) (2 ^ (0 : ℤ)) (1 - baseline) := by
    obtain ⟨b, hb, hge, -⟩ := hbaseline
    have hbelow : Within 0 (1 - 2 ^ (-53 : ℤ)) baseline :=
      ⟨b, hb, (by positivity : (0 : ℚ) ≤ 2 ^ (-100 : ℤ)).trans hge, le_before_one hb hlt⟩
    exact Within.one.sub hbelow (onGrid_zpow _ (by norm_num) (by norm_num))
      (onGrid_zpow _ (by norm_num) (by norm_num)) (by norm_num) (by norm_num)
  have hgain : Within (2 ^ (-200 : ℤ)) (2 ^ (100 : ℤ)) (baseline * effect) :=
    hbaseline.mul_zpow h.effect (by norm_num) (by norm_num) (by norm_num) (by norm_num)
  have hsquare : Within (2 ^ (-400 : ℤ)) (2 ^ (200 : ℤ)) (baseline * effect * (baseline * effect)) :=
    hgain.mul_zpow hgain (by norm_num) (by norm_num) (by norm_num) (by norm_num)
  have hz := within_quantiles hcurve h
  rw [rawSize]
  generalize curve.quantile (1 - (1 - confidence / 100) / 2) + curve.quantile power = z at hz
  have hzz : Within (2 ^ (-226 : ℤ)) (2 ^ (14 : ℤ)) (z * z) :=
    hz.mul_zpow hz (by norm_num) (by norm_num) (by norm_num) (by norm_num)
  have htwice : Within (2 ^ (-225 : ℤ)) (2 ^ (15 : ℤ)) (z * z * 2) :=
    hzz.mul_zpow within_two_zpow (by norm_num) (by norm_num) (by norm_num) (by norm_num)
  have hshare : Within (2 ^ (-325 : ℤ)) (2 ^ (15 : ℤ)) (z * z * 2 * baseline) :=
    htwice.mul_zpow hbaseline (by norm_num) (by norm_num) (by norm_num) (by norm_num)
  have hspread : Within (2 ^ (-378 : ℤ)) (2 ^ (15 : ℤ)) (z * z * 2 * baseline * (1 - baseline)) :=
    hshare.mul_zpow hrest (by norm_num) (by norm_num) (by norm_num) (by norm_num)
  exact hspread.div_zpow hsquare (by norm_num) (by norm_num) (by norm_num) (by norm_num)

theorem exists_rawDays (hcurve : curve.HasQuantiles)
    (h : IsModerate baseline effect confidence 0.8)
    (hvisitors : Within (2 ^ (-100 : ℤ)) (2 ^ (100 : ℤ)) visitors) (hlow : 2 ≤ variants)
    (hhigh : variants ≤ 2 ^ 100) :
    ∃ x, rawDays? curve visitors baseline effect variants confidence = some x ∧
      0 < x ∧ x.isFinite = true := by
  obtain ⟨b, hb, hge, hle⟩ := within_rawSize hcurve h
  have hpos : 0 < ⌈b.exact⌉ := Int.ceil_pos.mpr ((by positivity : (0 : ℚ) < 2 ^ (-578 : ℤ)).trans_le hge)
  have hsize : ⌈b.exact⌉ ≤ 2 ^ 415 := Int.ceil_le.mpr (by exact_mod_cast hle)
  have husers := Double.ceilFloat?_of_finite hb
  generalize ⌈b.exact⌉ = users at hpos hsize husers
  have hproduct : 1 ≤ users * variants := by nlinarith
  have hbound : ((users * variants : ℤ) : ℚ) ≤ 2 ^ (515 : ℤ) := by
    have hle : users * variants ≤ 2 ^ 415 * 2 ^ 100 := by gcongr
    rw [← pow_add] at hle
    have hcast := (Int.cast_le (R := ℚ)).mpr hle
    rwa [Int.cast_pow, Int.cast_ofNat] at hcast
  cases hd : Binary.ofInt? (users * variants) with
  | none =>
    have hbeyond : (Binary.overflowBound : ℤ) ≤ users * variants := by
      have := Binary.ofInt?_eq_none_iff.mp hd
      omega
    have hcast : (Binary.overflowBound : ℚ) ≤ ((users * variants : ℤ) : ℚ) := by exact_mod_cast hbeyond
    have hsmall : (2 : ℚ) ^ (515 : ℤ) ≤ 2 ^ (1023 : ℤ) := zpow_le_zpow_right₀ (by norm_num) (by norm_num)
    exact absurd (hcast.trans (hbound.trans hsmall)) (not_le.mpr Binary.lt_overflowBound)
  | some d =>
    have hdouble : Within (2 ^ (0 : ℤ)) (2 ^ (515 : ℤ)) d :=
      (Binary.ofInt?_nearby hd).faithful _ _ (onGrid_zpow _ (by norm_num) (by norm_num))
        (onGrid_zpow _ (by norm_num) (by norm_num)) (by exact_mod_cast hproduct) hbound
    have hdays : Within (2 ^ (-100 : ℤ)) (2 ^ (615 : ℤ)) (d / visitors) :=
      hdouble.div_zpow hvisitors (by norm_num) (by norm_num) (by norm_num) (by norm_num)
    exact ⟨d / visitors, rawDays?_eq_some.mpr ⟨users, d, husers, hd, rfl⟩, hdays.pos⟩

end Moderate

/-- Planning is guidance exactly where the quotients behind it are positive and finite. What is not asked
for is left out. A gain whose square is zero or infinite, an effect or a number of visitors that is
infinite or no number at all, and the last confidence below a hundred are asked for and give no guidance.
Moderate inputs give positive integers. -/
theorem planning_guides (hcurve : curve.HasQuantiles)
    (visitors baseline effect confidence power : Float) (variants : ℤ) :
    let size := minimumSampleSize curve (.float baseline) (.float effect) (.float confidence)
      (.float power)
    let days := daysToSignificance curve (.float visitors) (.float baseline) (.float effect) variants
      (.float confidence)
    SizedBy (SizeAsked baseline effect confidence power)
        (some (rawSize curve baseline effect confidence power)) size ∧
      SizedBy (DaysAsked visitors baseline effect variants confidence)
        (rawDays? curve visitors baseline effect variants confidence) days ∧
      (SizeAsked baseline effect confidence power → IsExtreme baseline effect confidence →
        ¬IsGuidance size ∧ (effect.isNaN = true → size = .error .notANumber)) ∧
      (DaysAsked visitors baseline effect variants confidence →
        visitors.isFinite = false ∨ IsExtreme baseline effect confidence → ¬IsGuidance days) ∧
      (IsModerate baseline effect confidence power → ∃ n > 0, size = .ok (some n)) ∧
      (IsModerate baseline effect confidence 0.8 → Within (2 ^ (-100 : ℤ)) (2 ^ (100 : ℤ)) visitors →
        2 ≤ variants → variants ≤ 2 ^ 100 → ∃ n > 0, days = .ok (some n)) := by
  have hsize := sizedBy_minimumSampleSize curve baseline effect confidence power
  have hdays := sizedBy_daysToSignificance curve visitors baseline effect variants confidence
  refine ⟨hsize, hdays, fun hasked hextreme =>
      ⟨not_isGuidance_of_extreme hcurve hasked hextreme, minimumSampleSize_of_isNaN hasked⟩,
    not_isGuidance_days_of_extreme hcurve, fun hmoderate => ?_,
    fun hmoderate hvisitors hlow hhigh => ?_⟩
  · exact hsize.positive hmoderate.asked ⟨_, rfl, (within_rawSize hcurve hmoderate).pos⟩
  · have hasked : DaysAsked visitors baseline effect variants confidence :=
      ⟨Double.not_le_of_lt rfl hvisitors.isNaN hvisitors.pos.1, hlow, hmoderate.asked⟩
    exact hdays.positive hasked (exists_rawDays hcurve hmoderate hvisitors hlow hhigh)

theorem isModerate_tenth : IsModerate 0.1 0.1 95.0 0.8 where
  baseline := ⟨by decide +kernel, by decide⟩
  effect := by decide +kernel
  confidence := by decide
  power := by decide

/-- A rate of a tenth and a tenth more of it can be planned for, at a thousand visitors a day. -/
theorem planning_guides_tenth : standardNormal.HasQuantiles ∧ IsModerate 0.1 0.1 95.0 0.8 ∧
    (∃ n > 0, minimumSampleSize standardNormal (.float 0.1) (.float 0.1) (.float 95.0) (.float 0.8) =
      .ok (some n)) ∧
    ∃ n > 0, daysToSignificance standardNormal (.float 1000.0) (.float 0.1) (.float 0.1) 2
      (.float 95.0) = .ok (some n) := by
  obtain ⟨-, -, -, -, hsize, hdays⟩ :=
    planning_guides standardNormal_hasQuantiles 1000.0 0.1 0.1 95.0 0.8 2
  exact ⟨standardNormal_hasQuantiles, isModerate_tenth, hsize isModerate_tenth,
    hdays isModerate_tenth (by decide +kernel) (by norm_num) (by norm_num)⟩

/-- An effect that is no number fails, and infinitely many visitors are said to need no day at all. -/
theorem planning_fails :
    minimumSampleSize standardNormal (.float 0.1) (.float (0.0 / 0.0)) = .error .notANumber ∧
    ¬IsGuidance (minimumSampleSize standardNormal (.float 0.1) (.float (1.0 / 0.0))) ∧
    ¬IsGuidance (minimumSampleSize standardNormal (.float 0.1) (.float 0.1)
      (.float 99.99999999999999)) ∧
    ¬IsGuidance (daysToSignificance standardNormal (.float (1.0 / 0.0)) (.float 0.1) (.float 0.1)) := by
  have hcurve := standardNormal_hasQuantiles
  have hasked (effect confidence : Float) (heffect : ¬effect ≤ 0)
      (hconfidence : 0 < confidence ∧ confidence < 100) : SizeAsked 0.1 effect confidence 0.8 :=
    ⟨by decide, heffect, hconfidence, by decide⟩
  refine ⟨minimumSampleSize_of_isNaN (hasked _ _ (by decide) (by decide)) (by decide), ?_, ?_, ?_⟩
  · exact not_isGuidance_of_extreme hcurve (hasked _ _ (by decide) (by decide)) (.inl (by decide))
  · exact not_isGuidance_of_extreme hcurve (hasked _ _ (by decide) (by decide))
      (.inr (.inr (.inr (by decide))))
  · exact not_isGuidance_days_of_extreme hcurve
      ⟨by decide, le_rfl, hasked _ _ (by decide) (by decide)⟩ (.inl (by decide))

end CohortAnalytics
