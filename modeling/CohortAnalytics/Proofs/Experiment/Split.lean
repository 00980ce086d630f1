import CohortAnalytics.Proofs.Experiment.Rollout
import CohortAnalytics.Proofs.Number.Finite

/-!
How an experiment splits the shares from zero to one among its variants. Each variant takes the
shares from one sum of weights to the next, and the last one also what no sum reaches. With exact sums
the part of a variant is as long as its weight, up to the tolerance for the total; sums of doubles add
no more than one rounding to that, however many variants there are. The last variant takes what is left
whatever it weighs.
-/

namespace CohortAnalytics

/-- The exact value of a number that is finite. -/
def Number.rational? : Number → Option ℚ
  | .int n => some n
  | .float x => (Binary.ofFloat? x).map Binary.exact

/-- Bounds that grow from zero to about one, each time by about a weight. -/
structure Cuts (n : ℕ) (weight bound : ℕ → ℚ) (rounding tolerance : ℚ) : Prop where
  zero : bound 0 = 0
  mono : ∀ i < n, bound i ≤ bound (i + 1)
  step : ∀ i < n, |bound (i + 1) - bound i - weight i| ≤ rounding
  total : |bound n - 1| ≤ tolerance

/-- From one bound to the next, and from the last but one on everything. -/
def InPart (n : ℕ) (bound : ℕ → ℚ) (i : ℕ) (u : ℚ) : Prop :=
  bound i ≤ u ∧ (u < bound (i + 1) ∨ i + 1 = n)

namespace Cuts

variable {n i j : ℕ} {weight bound : ℕ → ℚ} {rounding tolerance u : ℚ}

theorem bound_le (h : Cuts n weight bound rounding tolerance) (hij : i ≤ j) (hj : j ≤ n) :
    bound i ≤ bound j := by
  induction j, hij using Nat.le_induction with
  | base => exact le_refl _
  | succ j _ ih => exact (ih (by omega)).trans (h.mono j (by omega))

theorem exists_inPart (h : Cuts n weight bound rounding tolerance) (hn : 0 < n) (hu : 0 ≤ u) :
    ∃ i < n, InPart n bound i u := by
  have hreached : ∃ i, u < bound (i + 1) ∨ i + 1 = n := ⟨n - 1, .inr (by omega)⟩
  -- the first bound that is passed
  refine ⟨Nat.find hreached, ?_, ?_, Nat.find_spec hreached⟩
  · exact (Nat.find_min' hreached (.inr (by omega))).trans_lt (Nat.sub_lt hn Nat.one_pos)
  · cases hfirst : Nat.find hreached with
    | zero => rwa [h.zero]
    | succ i =>
      have hbefore := Nat.find_min hreached (m := i) (by omega)
      exact not_lt.mp fun hlt => hbefore (.inl hlt)

/-- Where the part of a weight ends among the numbers below one. -/
def partEnd (n : ℕ) (bound : ℕ → ℚ) (i : ℕ) : ℚ := if i + 1 = n then 1 else min (bound (i + 1)) 1

theorem partEnd_le_one : partEnd n bound i ≤ 1 := by
  rw [partEnd]
  split_ifs
  · exact le_rfl
  · exact min_le_right _ _

theorem inPart_iff (hu : u < 1) :
    InPart n bound i u ↔ min (bound i) 1 ≤ u ∧ u < partEnd n bound i := by
  rw [InPart, partEnd, min_le_iff, or_iff_left (not_le.mpr hu)]
  split_ifs with hlast
  · simp [hlast, hu]
  · simp [hlast, hu]

theorem nonneg (h : Cuts n weight bound rounding tolerance) (hi : i ≤ n) : 0 ≤ bound i := by
  rw [← h.zero]
  exact h.bound_le (Nat.zero_le i) hi

theorem start_le_partEnd (h : Cuts n weight bound rounding tolerance) (hi : i < n) :
    min (bound i) 1 ≤ partEnd n bound i := by
  rw [partEnd]
  split_ifs
  · exact min_le_right _ _
  · exact min_le_min_right 1 (h.mono i hi)

/-- Only a total that is not one makes a part longer or shorter than its weight. -/
theorem length_part (h : Cuts n weight bound rounding tolerance) (hi : i < n)
    (hweight : 0 ≤ weight i) :
    |partEnd n bound i - min (bound i) 1 - weight i| ≤ tolerance + rounding := by
  obtain ⟨hstepLow, hstepHigh⟩ := abs_le.mp (h.step i hi)
  obtain ⟨htotalLow, htotalHigh⟩ := abs_le.mp h.total
  have hnext := h.bound_le (show i + 1 ≤ n by omega) le_rfl
  have hmono := h.mono i hi
  rw [partEnd, abs_le]
  split_ifs with hlast
  · rw [hlast] at hstepLow hstepHigh hmono
    rcases min_cases (bound i) 1 with ⟨hmin, hle⟩ | ⟨hmin, hlt⟩ <;> rw [hmin] <;>
      constructor <;> linarith
  · rcases min_cases (bound i) 1 with ⟨hmin, hle⟩ | ⟨hmin, hlt⟩ <;>
      rcases min_cases (bound (i + 1)) 1 with ⟨hmin', hle'⟩ | ⟨hmin', hlt'⟩ <;>
        rw [hmin, hmin'] <;> constructor <;> linarith

end Cuts

namespace Experiment

section Sums

variable {α : Type} [Add α] {weigh? : Number → Option α} {share zero total : α}
  {variants : List Variant} {weights : List α} {e : Experiment}

/-- The sum of the first weights, added up in their order. -/
def sumTo (zero : α) (weights : List α) (i : ℕ) : α := (weights.take i).foldl (· + ·) zero

theorem sumTo_succ {i : ℕ} (hi : i < weights.length) :
    sumTo zero weights (i + 1) = sumTo zero weights i + weights[i] := by
  rw [sumTo, sumTo, List.take_succ_eq_append_getElem hi, List.foldl_append]
  rfl

/-- The weights of the variants are numbers of the kind that is added up. -/
def Weighs (weigh? : Number → Option α) (variants : List Variant) (weights : List α) : Prop :=
  List.Forall₂ (fun v w => weigh? v.weight = some w) variants weights

variable [LT α] [DecidableLT α]

theorem reach_of_lt {i : ℕ} (hi : i < variants.length) (h : Weighs weigh? variants weights)
    (hbefore : ∀ j < i, ¬share < sumTo total weights (j + 1))
    (hat : share < sumTo total weights (i + 1)) :
    reach weigh? share total variants = .ok (some variants[i]) := by
  induction h generalizing total i with
  | nil => exact absurd hi (Nat.not_lt_zero i)
  | cons hfirst _ ih =>
    simp only [reach, hfirst]
    cases i with
    | zero => exact if_pos hat
    | succ i =>
      refine (if_neg (hbefore 0 (Nat.succ_pos i))).trans ?_
      exact ih (by simpa using hi) (fun j hj => hbefore (j + 1) (by omega)) hat

theorem reach_of_not_lt (h : Weighs weigh? variants weights)
    (hnone : ∀ j < variants.length, ¬share < sumTo total weights (j + 1)) :
    reach weigh? share total variants = .ok none := by
  induction h generalizing total with
  | nil => rfl
  | cons hfirst _ ih =>
    simp only [reach, hfirst]
    refine (if_neg (hnone 0 (by simp))).trans ?_
    exact ih fun j hj => hnone (j + 1) (by simpa using hj)

variable {n i : ℕ} {weight bound : ℕ → ℚ} {rounding tolerance u : ℚ}

theorem variantBy_of_inPart (hcuts : Cuts e.variants.length weight bound rounding tolerance)
    (h : Weighs weigh? e.variants weights)
    (hlt : ∀ j ≤ e.variants.length, share < sumTo zero weights j ↔ u < bound j)
    (hi : i < e.variants.length) (hpart : InPart e.variants.length bound i u) :
    e.variantBy weigh? zero share = .ok (some e.variants[i]) := by
  have hbefore (j : ℕ) (hj : j < i) : ¬share < sumTo zero weights (j + 1) := by
    rw [hlt _ (by omega), not_lt]
    exact (hcuts.bound_le (show j + 1 ≤ i by omega) hi.le).trans hpart.1
  by_cases hat : u < bound (i + 1)
  · rw [variantBy, reach_of_lt hi h hbefore ((hlt _ hi).mpr hat)]
    rfl
  · have hlast := hpart.2.resolve_left hat
    have hnone : reach weigh? share zero e.variants = .ok none := by
      apply reach_of_not_lt h
      intro j hj
      rcases Nat.lt_or_eq_of_le (show j ≤ i by omega) with hji | rfl
      · exact hbefore j hji
      · rwa [hlt _ (by omega)]
    have hfallback : e.variants.getLast? = some e.variants[i] := by
      rw [List.getLast?_eq_getElem?, ← hlast, Nat.add_sub_cancel, List.getElem?_eq_getElem hi]
    rw [variantBy, hnone, hfallback]
    rfl

/-- How the shares from zero to one are split: each belongs to one variant, the variants stand in
consecutive parts between the bounds, and the part of a variant is about as long as its weight says. -/
structure Splits {α : Type} (e : Experiment) (choose : α → Except Failure (Option Variant))
    (IsShare : α → ℚ → Prop) (bound : ℕ → ℚ) (slack : ℚ) : Prop where
  unique : ∀ x u, IsShare x u → 0 ≤ u → u < 1 →
    ∃! i : Fin e.variants.length, choose x = .ok (some e.variants[i])
  part : ∀ x u, IsShare x u → 0 ≤ u → u < 1 → ∀ i : Fin e.variants.length,
    choose x = .ok (some e.variants[i]) ↔ bound i ≤ u ∧ (u < bound (i + 1) ∨ i + 1 = e.variants.length)
  length : ∀ i : Fin e.variants.length, ∃ w a b, e.variants[i].weight.rational? = some w ∧
    (0 ≤ a ∧ a ≤ b ∧ b ≤ 1) ∧ |b - a - w| ≤ slack ∧
      ∀ x u, IsShare x u → 0 ≤ u → u < 1 → (choose x = .ok (some e.variants[i]) ↔ a ≤ u ∧ u < b)

theorem splits_of_cuts {IsShare : α → ℚ → Prop} (hcomposed : e.IsComposed)
    (hcuts : Cuts e.variants.length weight bound rounding tolerance)
    (h : Weighs weigh? e.variants weights)
    (hlt : ∀ x u, IsShare x u → ∀ j ≤ e.variants.length, x < sumTo zero weights j ↔ u < bound j)
    (hweight : ∀ i : Fin e.variants.length,
      0 ≤ weight i ∧ e.variants[i].weight.rational? = some (weight i)) :
    Splits e (e.variantBy weigh? zero) IsShare bound (tolerance + rounding) := by
  have hpos : 0 < e.variants.length := Nat.lt_of_lt_of_le Nat.two_pos hcomposed.enough
  have hpart (x : α) (u : ℚ) (hx : IsShare x u) (hu : 0 ≤ u) (i : Fin e.variants.length) :
      e.variantBy weigh? zero x = .ok (some e.variants[i]) ↔ InPart e.variants.length bound i u := by
    constructor
    · intro hchosen
      obtain ⟨j, hj, hinPart⟩ := hcuts.exists_inPart hpos hu
      rw [variantBy_of_inPart hcuts h (hlt x u hx) hj hinPart] at hchosen
      have hsame := Option.some.inj (Except.ok.inj hchosen)
      obtain rfl := (hcomposed.nodup_variants.of_map.getElem_inj_iff).mp hsame
      exact hinPart
    · exact variantBy_of_inPart hcuts h (hlt x u hx) i.isLt
  refine ⟨?_, fun x u hx hu _ => hpart x u hx hu, ?_⟩
  · intro x u hx hu _
    obtain ⟨i, hi, hinPart⟩ := hcuts.exists_inPart hpos hu
    have hchosen := (hpart x u hx hu ⟨i, hi⟩).mpr hinPart
    refine ⟨⟨i, hi⟩, hchosen, fun j hj => Fin.ext ?_⟩
    have hsame := Option.some.inj (Except.ok.inj (hj.symm.trans hchosen))
    exact (hcomposed.nodup_variants.of_map.getElem_inj_iff).mp hsame
  · intro i
    obtain ⟨hnonneg, hexact⟩ := hweight i
    have hstart : 0 ≤ min (bound i) 1 := le_min (hcuts.nonneg i.isLt.le) zero_le_one
    refine ⟨weight i, min (bound i) 1, Cuts.partEnd e.variants.length bound i, hexact,
      ⟨hstart, hcuts.start_le_partEnd i.isLt, Cuts.partEnd_le_one⟩,
      hcuts.length_part i.isLt hnonneg, ?_⟩
    intro x u hx hu hlt'
    rw [hpart x u hx hu, Cuts.inPart_iff hlt']

end Sums

section Weights

variable {e : Experiment} {a : Number} {x w : Float} {b d : Binary}

theorem ofFloat?_one : Binary.ofFloat? 1.0 = some ⟨false, 2 ^ 52, -52⟩ := by decide

theorem exact_one : Binary.exact ⟨false, 2 ^ 52, -52⟩ = 1 := by
  norm_num [Binary.exact_eq, Binary.magnitudeValue]

theorem exact_zero_double : Binary.exact ⟨false, 0, -1074⟩ = 0 := Binary.exact_zero rfl

/-- The weights are shares themselves. -/
def HasShares (e : Experiment) : Prop :=
  ∀ v ∈ e.variants, Number.le (.int 0) v.weight = true ∧ Number.le v.weight (.int 1) = true

/-- A double and the number that it stands for, at least zero and at most one. -/
structure IsWeight (a : Number) (w : Float) (d : Binary) : Prop where
  toFloat : a.toFloat? = some w
  ofFloat : Binary.ofFloat? w = some d
  exact : a.rational? = some d.exact
  nonneg : 0 ≤ d.exact
  le_one : d.exact ≤ 1

theorem exists_isWeight (hlow : Number.le (.int 0) a = true) (hhigh : a.le (.int 1) = true) :
    ∃ w d, IsWeight a w d := by
  cases a with
  | int n =>
    rw [Number.le_int, decide_eq_true_iff] at hlow hhigh
    obtain rfl | rfl : n = 0 ∨ n = 1 := by omega
    · refine ⟨0, ⟨false, 0, -1074⟩, by decide, Binary.ofFloat?_zero, ?_, ?_, ?_⟩ <;>
        rw [exact_zero_double]
      exacts [rfl, zero_le_one]
    · refine ⟨1.0, ⟨false, 2 ^ 52, -52⟩, by decide, ofFloat?_one, ?_, ?_, ?_⟩ <;> rw [exact_one]
      exacts [rfl, zero_le_one]
  | float w =>
    obtain ⟨-, hproper, hlow⟩ := Number.le_iff_position.mp hlow
    obtain ⟨-, -, hhigh⟩ := Number.le_iff_position.mp hhigh
    rcases Number.unpack_cases hproper with ⟨d, hd⟩ | ⟨-, -, -, hposition⟩ | ⟨-, -, -, hposition⟩
    · rw [Number.position_float hd, Number.position] at hlow hhigh
      exact ⟨w, d, rfl, hd, by rw [Number.rational?, hd]; rfl, by exact_mod_cast hlow,
        by exact_mod_cast hhigh⟩
    · rw [hposition] at hlow
      exact absurd hlow (not_le.mpr (WithBot.bot_lt_coe _))
    · rw [hposition] at hhigh
      exact absurd hhigh (not_le.mpr (WithBot.coe_lt_coe.mpr (WithTop.coe_lt_top _)))

def exactWeights (e : Experiment) : List ℚ := e.variants.filterMap fun v => v.weight.rational?

def floatWeights (e : Experiment) : List Float := e.variants.filterMap fun v => v.weight.toFloat?

theorem weighs_filterMap {α : Type} {weigh? : Number → Option α} {variants : List Variant}
    (h : ∀ v ∈ variants, ∃ w, weigh? v.weight = some w) :
    Weighs weigh? variants (variants.filterMap fun v => weigh? v.weight) := by
  induction variants with
  | nil => exact .nil
  | cons v rest ih =>
    obtain ⟨w, hw⟩ := h v List.mem_cons_self
    rw [List.filterMap_cons_some (f := fun v : Variant => weigh? v.weight) hw]
    exact .cons hw (ih fun v hv => h v (List.mem_cons_of_mem _ hv))

theorem HasShares.weighs_exact (h : e.HasShares) : Weighs Number.rational? e.variants e.exactWeights :=
  weighs_filterMap fun v hv =>
    have ⟨_, _, hw⟩ := exists_isWeight (h v hv).1 (h v hv).2
    ⟨_, hw.exact⟩

theorem HasShares.weighs_float (h : e.HasShares) : Weighs Number.toFloat? e.variants e.floatWeights :=
  weighs_filterMap fun v hv =>
    have ⟨_, _, hw⟩ := exists_isWeight (h v hv).1 (h v hv).2
    ⟨_, hw.toFloat⟩

/-- How far a total may lie from one, as an exact number. -/
def tolerance : ℚ := (Number.rational? (.float weightTolerance)).getD 0

/-- Accepted by a check that adds the weights up exactly. -/
structure AcceptedExactly (e : Experiment) : Prop where
  composed : e.IsComposed
  total : |e.exactWeights.sum - 1| ≤ tolerance

theorem HasShares.exact_weight (h : e.HasShares) (i : Fin e.variants.length) :
    0 ≤ e.exactWeights.getD i 0 ∧ e.variants[i].weight.rational? = some (e.exactWeights.getD i 0) := by
  have hlength := h.weighs_exact.length_eq
  have hi : i.val < e.exactWeights.length := hlength ▸ i.isLt
  have hsame : e.variants[i].weight.rational? = some e.exactWeights[i] := h.weighs_exact.get i.isLt hi
  obtain ⟨_, d, hd⟩ := exists_isWeight (h _ (List.getElem_mem i.isLt)).1 (h _ (List.getElem_mem i.isLt)).2
  rw [List.getD_eq_getElem _ _ hi]
  refine ⟨?_, hsame⟩
  have hvalue := Option.some.inj (hsame.symm.trans hd.exact)
  exact hvalue ▸ hd.nonneg

theorem sumTo_zero_eq (weights : List ℚ) (i : ℕ) : sumTo 0 weights i = (weights.take i).sum := by
  rw [sumTo, List.sum_eq_foldl]

theorem cuts_exact (h : e.HasShares) (htotal : |e.exactWeights.sum - 1| ≤ tolerance) :
    Cuts e.variants.length (fun i => e.exactWeights.getD i 0) (fun i => (e.exactWeights.take i).sum) 0
      tolerance := by
  have hlength := h.weighs_exact.length_eq
  have hstep (i : ℕ) (hi : i < e.variants.length) :
      (e.exactWeights.take (i + 1)).sum = (e.exactWeights.take i).sum + e.exactWeights.getD i 0 := by
    have hi' : i < e.exactWeights.length := hlength ▸ hi
    rw [List.sum_take_succ _ _ hi', List.getD_eq_getElem _ _ hi']
  refine ⟨by simp, fun i hi => ?_, fun i hi => ?_, ?_⟩
  · rw [hstep i hi]
    exact le_add_of_nonneg_right (h.exact_weight ⟨i, hi⟩).1
  · rw [hstep i hi, add_sub_cancel_left, sub_self, abs_zero]
  · rwa [hlength, List.take_length]

theorem splits_exactly (h : e.HasShares) (haccepted : e.AcceptedExactly) :
    Splits e (e.variantBy Number.rational? 0) Eq (fun i => (e.exactWeights.take i).sum) tolerance := by
  rw [← add_zero tolerance]
  exact splits_of_cuts haccepted.composed (cuts_exact h haccepted.total) h.weighs_exact
    (fun x u hx j _ => by rw [hx, sumTo_zero_eq]) h.exact_weight

theorem two_le_of_nearby {q : ℚ} (h : Nearby q x) (hq : 2 ≤ q) :
    Number.le (.int 2) (.float x) = true :=
  Number.le_iff_position.mpr ⟨rfl, congrArg not h.isNaN,
    by exact_mod_cast h.above 2 (onGrid_ofNat 2 (by norm_num)) hq⟩

/-- A sum that is two or more stays so, infinite or not. -/
theorem two_le_add (hx : Number.le (.int 2) (.float x) = true) (hw : IsWeight a w d) :
    Number.le (.int 2) (.float (x + w)) = true := by
  obtain ⟨-, hproper, hposition⟩ := Number.le_iff_position.mp hx
  rcases Number.unpack_cases hproper with ⟨b, hb⟩ | ⟨-, -, -, hbot⟩ | ⟨-, -, hinfinite, -⟩
  · rw [Number.int_le_float _ hb] at hx
    apply two_le_of_nearby (Binary.add_nearby hb hw.ofFloat)
    push_cast at hx
    linarith [hw.nonneg]
  · rw [hbot] at hposition
    exact absurd hposition (not_le.mpr (WithBot.bot_lt_coe _))
  · have hsum : x + w = 1.0 / 0.0 := by
      apply eq_of_unpack_eq
      change (Float.Model.pack (Float.Model.UnpackedFloat.add _ x.toModel.unpack w.toModel.unpack)).unpack = _
      rw [hinfinite, Binary.unpack_of_ofFloat? hw.ofFloat, Binary.unpacked]
      split_ifs <;> rfl
    rw [hsum]
    exact Number.le_iff_position.mpr ⟨rfl, rfl, le_top⟩

/-- The next sum of weights, as long as it stays below two. -/
structure NextSum (b d c : Binary) : Prop where
  mono : b.exact ≤ c.exact
  lt_two : c.exact < 2
  error : |c.exact - b.exact - d.exact| ≤ 2 ^ (-52 : ℤ)

theorem add_weight (hx : Binary.ofFloat? x = some b) (hnonneg : 0 ≤ b.exact) (hlt : b.exact < 2)
    (hw : IsWeight a w d) : (∃ c, Binary.ofFloat? (x + w) = some c ∧ NextSum b d c) ∨
      Number.le (.int 2) (.float (x + w)) = true := by
  have hnearby := Binary.add_nearby hx hw.ofFloat
  by_cases hlarge : Number.le (.int 2) (.float (x + w)) = true
  · exact .inr hlarge
  · left
    have hsum : b.exact + d.exact < 2 :=
      not_le.mp fun hge => hlarge (two_le_of_nearby hnearby hge)
    obtain ⟨c, hc, herror⟩ := hnearby.faithful.error_le (add_nonneg hnonneg hw.nonneg) hsum
    have hgrid := (Binary.isDouble_of_ofFloat? hx).onGrid_of_le_two hnonneg hlt.le
    have hmono := hnearby.above b.exact hgrid (le_add_of_nonneg_right hw.nonneg)
    rw [Number.position_float hc] at hmono
    rw [Number.int_le_float _ hc, not_le] at hlarge
    exact ⟨c, hc, by exact_mod_cast hmono, by exact_mod_cast hlarge, by rwa [sub_sub]⟩

/-- The sum of the first weights as the program has it. -/
def floatSum (e : Experiment) (i : ℕ) : Float := sumTo 0.0 e.floatWeights i

def floatBound (e : Experiment) (i : ℕ) : ℚ := (Number.rational? (.float (e.floatSum i))).getD 0

theorem floatBound_eq {i : ℕ} (h : Binary.ofFloat? (e.floatSum i) = some b) :
    e.floatBound i = b.exact := by
  rw [floatBound, Number.rational?, h]
  rfl

theorem ofFloat?_floatSum_zero (e : Experiment) :
    Binary.ofFloat? (e.floatSum 0) = some ⟨false, 0, -1074⟩ := by
  change Binary.ofFloat? 0.0 = _
  decide

theorem HasShares.weight_at (h : e.HasShares) {i : ℕ} (hi : i < e.variants.length) :
    ∃ w d, IsWeight e.variants[i].weight w d ∧ d.exact = e.exactWeights.getD i 0 ∧
      e.floatSum (i + 1) = e.floatSum i + w := by
  obtain ⟨w, d, hw⟩ := exists_isWeight (h _ (List.getElem_mem hi)).1 (h _ (List.getElem_mem hi)).2
  have hi' : i < e.floatWeights.length := h.weighs_float.length_eq ▸ hi
  have hsame : e.variants[i].weight.toFloat? = some e.floatWeights[i] := h.weighs_float.get hi hi'
  refine ⟨w, d, hw, ?_, ?_⟩
  · exact Option.some.inj (hw.exact.symm.trans (h.exact_weight ⟨i, hi⟩).2)
  · rw [floatSum, sumTo_succ hi', Option.some.inj (hw.toFloat.symm.trans hsame)]
    rfl

theorem two_le_floatSum (h : e.HasShares) {i j : ℕ} (hij : i ≤ j) (hj : j ≤ e.variants.length)
    (hi : Number.le (.int 2) (.float (e.floatSum i)) = true) :
    Number.le (.int 2) (.float (e.floatSum j)) = true := by
  induction j, hij using Nat.le_induction with
  | base => exact hi
  | succ j _ ih =>
    obtain ⟨w, d, hw, -, hsum⟩ := h.weight_at hj
    rw [hsum]
    exact two_le_add (ih (by omega)) hw

/-- Sums that end below two are doubles from zero to two all the way. -/
theorem finite_floatSum (h : e.HasShares)
    (hend : ¬Number.le (.int 2) (.float (e.floatSum e.variants.length)) = true) {i : ℕ}
    (hi : i ≤ e.variants.length) :
    ∃ b, Binary.ofFloat? (e.floatSum i) = some b ∧ 0 ≤ b.exact ∧ b.exact < 2 := by
  induction i with
  | zero => exact ⟨_, ofFloat?_floatSum_zero e, exact_zero_double.ge, by rw [exact_zero_double]; simp⟩
  | succ i ih =>
    obtain ⟨b, hb, hnonneg, hlt⟩ := ih (by omega)
    obtain ⟨w, d, hw, -, hsum⟩ := h.weight_at hi
    rcases add_weight hb hnonneg hlt hw with ⟨c, hc, hnext⟩ | hlarge
    · exact ⟨c, hsum ▸ hc, hnonneg.trans hnext.mono, hnext.lt_two⟩
    · exact absurd (two_le_floatSum h hi le_rfl (hsum ▸ hlarge)) hend

theorem cuts_float (h : e.HasShares)
    (hend : ¬Number.le (.int 2) (.float (e.floatSum e.variants.length)) = true)
    (htotal : |e.floatBound e.variants.length - 1| ≤ tolerance) :
    Cuts e.variants.length (fun i => e.exactWeights.getD i 0) e.floatBound (2 ^ (-52 : ℤ))
      tolerance := by
  have hstep (i : ℕ) (hi : i < e.variants.length) : ∃ b d c, NextSum b d c ∧
      e.floatBound i = b.exact ∧ e.exactWeights.getD i 0 = d.exact ∧
        e.floatBound (i + 1) = c.exact := by
    obtain ⟨b, hb, hnonneg, hlt⟩ := finite_floatSum h hend hi.le
    obtain ⟨w, d, hw, hexact, hsum⟩ := h.weight_at hi
    rcases add_weight hb hnonneg hlt hw with ⟨c, hc, hnext⟩ | hlarge
    · exact ⟨b, d, c, hnext, floatBound_eq hb, hexact.symm, floatBound_eq (hsum ▸ hc)⟩
    · exact absurd (two_le_floatSum h hi le_rfl (hsum ▸ hlarge)) hend
  refine ⟨?_, fun i hi => ?_, fun i hi => ?_, htotal⟩
  · rw [floatBound_eq (ofFloat?_floatSum_zero e), exact_zero_double]
  · obtain ⟨b, d, c, hnext, hb, -, hc⟩ := hstep i hi
    rw [hb, hc]
    exact hnext.mono
  · obtain ⟨b, d, c, hnext, hb, hd, hc⟩ := hstep i hi
    rw [hb, hc, hd]
    exact hnext.error

/-- The total that is checked, next to the sum that assigns: the same double, or both two and more. Only
ones and zeros leave the total an integer. -/
inductive Agrees : Number → Float → Prop
  | zero : Agrees (.int 0) 0
  | one : Agrees (.int 1) 1
  | float {x : Float} : Agrees (.float x) x
  | large {total : Number} {x : Float} (htotal : Number.le (.int 2) total = true)
      (hx : Number.le (.int 2) (.float x) = true) : Agrees total x

theorem two_le_toFloat {total : Number} (h : Number.le (.int 2) total = true)
    (hx : total.toFloat? = some x) : Number.le (.int 2) (.float x) = true := by
  cases total with
  | float y =>
    obtain rfl := Option.some.inj hx
    exact h
  | int n =>
    rw [Number.le_int, decide_eq_true_iff] at h
    exact two_le_of_nearby (Binary.ofInt?_nearby hx) (by exact_mod_cast h)

theorem add?_cases {m n next : Number} (h : m.add? n = some next) :
    (∃ j k, m = .int j ∧ n = .int k ∧ next = .int (j + k)) ∨
      ∃ y z, m.toFloat? = some y ∧ n.toFloat? = some z ∧ next = .float (y + z) := by
  by_cases hints : ∃ j k, m = .int j ∧ n = .int k
  · obtain ⟨j, k, rfl, rfl⟩ := hints
    exact .inl ⟨j, k, rfl, rfl, (Option.some.inj h).symm⟩
  · right
    have hfloats : m.add? n =
        m.toFloat?.bind fun y => n.toFloat?.bind fun z => some (.float (y + z)) := by
      cases m with
      | float y => cases n <;> rfl
      | int j =>
        cases n with
        | float z => rfl
        | int k => exact absurd ⟨j, k, rfl, rfl⟩ hints
    rw [hfloats] at h
    obtain ⟨y, hy, h⟩ := Option.bind_eq_some_iff.mp h
    obtain ⟨z, hz, h⟩ := Option.bind_eq_some_iff.mp h
    exact ⟨y, z, hy, hz, (Option.some.inj h).symm⟩

theorem IsWeight.int_cases {k : ℤ} (hw : IsWeight (.int k) w d) : k = 0 ∧ w = 0 ∨ k = 1 ∧ w = 1 := by
  have hexact : (k : ℚ) = d.exact := Option.some.inj hw.exact
  have hlow : 0 ≤ k := by exact_mod_cast hexact ▸ hw.nonneg
  have hhigh : k ≤ 1 := by exact_mod_cast hexact ▸ hw.le_one
  obtain rfl | rfl : k = 0 ∨ k = 1 := by omega
  · exact .inl ⟨rfl, Option.some.inj (hw.toFloat.symm.trans (by decide))⟩
  · exact .inr ⟨rfl, Option.some.inj (hw.toFloat.symm.trans (by decide))⟩

theorem Agrees.add {total next : Number} (h : Agrees total x) (hw : IsWeight a w d)
    (hnext : total.add? a = some next) : Agrees next (x + w) := by
  have htoFloat (hx : total.toFloat? = some x) (hints : ∀ j k, total = .int j → a ≠ .int k) :
      Agrees next (x + w) := by
    rcases add?_cases hnext with ⟨j, k, rfl, rfl, -⟩ | ⟨y, z, hy, hz, rfl⟩
    · exact absurd rfl (hints j k rfl)
    · rw [Option.some.inj (hx.symm.trans hy), Option.some.inj (hw.toFloat.symm.trans hz)]
      exact .float
  cases h with
  | float => exact htoFloat rfl fun _ _ h => by cases h
  | large htotal hx =>
    refine .large ?_ (two_le_add hx hw)
    rcases add?_cases hnext with ⟨j, k, rfl, rfl, rfl⟩ | ⟨y, z, hy, hz, rfl⟩
    · have hk := hw.int_cases
      rw [Number.le_int, decide_eq_true_iff] at htotal ⊢
      omega
    · rw [← Option.some.inj (hw.toFloat.symm.trans hz)]
      exact two_le_add (two_le_toFloat htotal hy) hw
  | zero =>
    cases a with
    | float y => exact htoFloat (by decide) fun _ _ _ h => by cases h
    | int k =>
      obtain rfl := Option.some.inj hnext
      rcases hw.int_cases with ⟨rfl, rfl⟩ | ⟨rfl, rfl⟩
      · rw [show (0 : Float) + 0 = 0 by decide]
        exact .zero
      · rw [show (0 : Float) + 1 = 1 by decide]
        exact .one
  | one =>
    cases a with
    | float y => exact htoFloat (by decide) fun _ _ _ h => by cases h
    | int k =>
      obtain rfl := Option.some.inj hnext
      rcases hw.int_cases with ⟨rfl, rfl⟩ | ⟨rfl, rfl⟩
      · rw [show (1 : Float) + 0 = 1 by decide]
        exact .one
      · exact .large (by decide) (by decide)

theorem agrees_foldlM {variants : List Variant} {weights : List Float} {start total : Number}
    (hshares : ∀ v ∈ variants, ∃ w d, IsWeight v.weight w d)
    (hweights : Weighs Number.toFloat? variants weights) (hstart : Agrees start x)
    (htotal : (variants.map Variant.weight).foldlM Number.add? start = some total) :
    Agrees total (weights.foldl (· + ·) x) := by
  induction hweights generalizing start x with
  | nil =>
    obtain rfl := Option.some.inj htotal
    exact hstart
  | cons hfirst _ ih =>
    obtain ⟨w, d, hw⟩ := hshares _ List.mem_cons_self
    obtain ⟨next, hnext, htotal⟩ := Option.bind_eq_some_iff.mp htotal
    rw [List.foldl_cons, ← Option.some.inj (hw.toFloat.symm.trans hfirst)]
    exact ih (fun v hv => hshares v (List.mem_cons_of_mem _ hv)) (hstart.add hw hnext) htotal

theorem agrees_total (h : e.HasShares) {total : Number} (htotal : e.weightTotal? = some total) :
    Agrees total (e.floatSum e.variants.length) := by
  rw [floatSum, sumTo, h.weighs_float.length_eq, List.take_length]
  refine agrees_foldlM (fun v hv => exists_isWeight (h v hv).1 (h v hv).2) h.weighs_float ?_ htotal
  rw [show (0.0 : Float) = 0 by decide]
  exact .zero

theorem Agrees.toFloat {total : Number} {y : Float} (h : Agrees total x)
    (hy : total.toFloat? = some y) :
    y = x ∨ Number.le (.int 2) (.float y) = true := by
  cases h with
  | float => exact .inl (Option.some.inj hy).symm
  | large htotal _ => exact .inr (two_le_toFloat htotal hy)
  | zero => exact .inl (Option.some.inj (hy.symm.trans (by decide)))
  | one => exact .inl (Option.some.inj (hy.symm.trans (by decide)))

theorem checkWeights_ok (h : e.checkWeights = .ok ()) : ∃ total y, e.weightTotal? = some total ∧
    total.toFloat? = some y ∧ ¬weightTolerance < (y - 1.0).abs := by
  rw [checkWeights] at h
  split at h
  · cases h
  · next total htotal =>
    split at h
    · cases h
    · next y hy =>
      refine ⟨total, y, htotal, hy, fun hfar => ?_⟩
      rw [if_pos hfar] at h
      cases h

theorem exists_tolerance : ∃ p, Binary.ofFloat? weightTolerance = some p ∧ tolerance = p.exact ∧
    p.exact < 1 / 2 :=
  have hdouble : Binary.ofFloat? weightTolerance = some ⟨false, 4611686018427388, -62⟩ := by decide
  ⟨_, hdouble, by rw [tolerance, Number.rational?, hdouble]; rfl,
    by norm_num [Binary.exact_eq, Binary.magnitudeValue]⟩

theorem within_tolerance (hx : Binary.ofFloat? x = some b) (h : ¬weightTolerance < (x - 1.0).abs) :
    Nearby (b.exact - 1) (x - 1.0) ∧ Within (-tolerance) tolerance (x - 1.0) := by
  obtain ⟨p, hp, heq, -⟩ := exists_tolerance
  have hnearby := Binary.sub_nearby hx ofFloat?_one
  rw [exact_one] at hnearby
  exact ⟨hnearby, heq ▸ Double.within_of_not_lt_abs hp hnearby.isNaN h⟩

theorem not_two_le_of_near (h : ¬weightTolerance < (x - 1.0).abs) :
    ¬Number.le (.int 2) (.float x) = true := by
  intro hlarge
  obtain ⟨-, hproper, hposition⟩ := Number.le_iff_position.mp hlarge
  rcases Number.unpack_cases hproper with ⟨b, hb⟩ | ⟨-, -, -, hbot⟩ | ⟨-, -, hinfinite, -⟩
  · obtain ⟨hnearby, c, hc, -, hle⟩ := within_tolerance hb h
    obtain ⟨p, -, heq, hsmall⟩ := exists_tolerance
    rw [Number.int_le_float _ hb] at hlarge
    have habove := hnearby.above 1 onGrid_one (by push_cast at hlarge; linarith)
    rw [Number.position_float hc] at habove
    have hone : 1 ≤ c.exact := by exact_mod_cast habove
    linarith
  · rw [hbot] at hposition
    exact absurd hposition (not_le.mpr (WithBot.bot_lt_coe _))
  · have hx : x = 1.0 / 0.0 := eq_of_unpack_eq hinfinite
    subst hx
    exact h (by decide)

theorem near_of_not_lt (hx : Binary.ofFloat? x = some b) (hlt : b.exact < 2)
    (h : ¬weightTolerance < (x - 1.0).abs) : |b.exact - 1| ≤ tolerance := by
  obtain ⟨p, -, heq, hsmall⟩ := exists_tolerance
  obtain ⟨hnearby, c, hc, hge, hle⟩ := within_tolerance hx h
  have hhalf : 1 / 2 ≤ b.exact := by
    by_contra hbelow
    have hfar := hnearby.below (-(2 ^ (-1 : ℤ))) (onGrid_zpow (-1) (by norm_num) (by norm_num)).neg
      (by norm_num; linarith)
    rw [Number.position_float hc] at hfar
    have hnegative : c.exact ≤ -(2 ^ (-1 : ℤ)) := by exact_mod_cast hfar
    norm_num at hnegative
    linarith
  -- so close to one the difference is a double itself
  have hgrid := (Binary.isDouble_of_ofFloat? hx).onGrid_sub_one hhalf hlt
  obtain ⟨d, hd, hlow, hhigh⟩ := hnearby.faithful _ _ hgrid hgrid le_rfl le_rfl
  obtain rfl := Option.some.inj (hc.symm.trans hd)
  rw [← le_antisymm hhigh hlow]
  exact abs_le.mpr ⟨hge, hle⟩

theorem total_of_accepted (h : e.HasShares) (haccepted : e.checkWeights = .ok ()) :
    ¬Number.le (.int 2) (.float (e.floatSum e.variants.length)) = true ∧
      |e.floatBound e.variants.length - 1| ≤ tolerance := by
  obtain ⟨total, y, htotal, hy, hnear⟩ := checkWeights_ok haccepted
  have hsmall := not_two_le_of_near hnear
  obtain rfl := ((agrees_total h htotal).toFloat hy).resolve_right hsmall
  obtain ⟨b, hb, -, hlt⟩ := finite_floatSum h hsmall le_rfl
  refine ⟨hsmall, ?_⟩
  rw [floatBound_eq hb]
  exact near_of_not_lt hb hlt hnear

theorem splits_in_doubles (h : e.HasShares) (haccepted : e.Accepted) :
    Splits e e.variantAt (fun x u => Number.rational? (.float x) = some u) e.floatBound
      (tolerance + 2 ^ (-52 : ℤ)) := by
  obtain ⟨hweights, hcomposed⟩ := accepted_iff.mp haccepted
  obtain ⟨hend, htotal⟩ := total_of_accepted h hweights
  refine splits_of_cuts hcomposed (cuts_float h hend htotal) h.weighs_float ?_ h.exact_weight
  intro x u hx j hj
  obtain ⟨b, hb, hexact⟩ := Option.map_eq_some_iff.mp hx
  obtain ⟨c, hc, -, -⟩ := finite_floatSum h hend hj
  rw [floatBound_eq hc, ← hexact, ← lt_iff_exact hb hc]
  rfl

/-- Shares are split in proportion to the weights: with exact sums up to what the total may be off, and
in doubles up to that and one rounding. -/
theorem splits_by_weight (h : e.HasShares) :
    (e.AcceptedExactly →
      Splits e (e.variantBy Number.rational? 0) Eq (fun i => (e.exactWeights.take i).sum) tolerance) ∧
    (e.Accepted →
      Splits e e.variantAt (fun x u => Number.rational? (.float x) = some u) e.floatBound
        (tolerance + 2 ^ (-52 : ℤ))) :=
  ⟨splits_exactly h, splits_in_doubles h⟩

theorem splits_by_weight_checkout : checkoutExperiment.HasShares ∧ checkoutExperiment.Accepted ∧
    Splits checkoutExperiment (checkoutExperiment.variantBy Number.rational? 0) Eq
      (fun i => (checkoutExperiment.exactWeights.take i).sum) tolerance ∧
    Splits checkoutExperiment checkoutExperiment.variantAt
      (fun x u => Number.rational? (.float x) = some u) checkoutExperiment.floatBound
      (tolerance + 2 ^ (-52 : ℤ)) := by
  have hshares : checkoutExperiment.HasShares := by
    rw [HasShares]
    decide
  have haccepted : checkoutExperiment.Accepted := by
    rw [Accepted]
    decide
  have hexactly : checkoutExperiment.AcceptedExactly :=
    ⟨(accepted_iff.mp haccepted).2, by decide +kernel⟩
  have hsplits := splits_by_weight hshares
  exact ⟨hshares, haccepted, hsplits.1 hexactly, hsplits.2 haccepted⟩

end Weights

section LeftOver

variable {buckets : Bucketing} {e : Experiment} {visitor : String} {v : Variant} {a : Number}
  {x share total : Float} {b : Binary} {variants : List Variant}

theorem not_pos_of_toFloat (ha : Number.lt (.int 0) a = false) (hx : a.toFloat? = some x) : ¬0 < x := by
  intro hpos
  have hproper := (Double.isNaN_of_lt hpos).2
  rw [Double.lt_iff_position rfl hproper, Number.position_float Binary.ofFloat?_zero,
    exact_zero_double] at hpos
  cases a with
  | float y =>
    obtain rfl := Option.some.inj hx
    rw [Bool.eq_false_iff] at ha
    exact ha (Number.lt_iff_position.mpr ⟨rfl, congrArg not hproper, by exact_mod_cast hpos⟩)
  | int n =>
    rw [Number.lt_int, decide_eq_false_iff_not, not_lt] at ha
    have hle := (Binary.ofInt?_nearby hx).below 0 onGrid_zero (by exact_mod_cast ha)
    exact absurd hpos (not_lt.mpr (by exact_mod_cast hle))

/-- Only a weight above zero lifts a sum above a share. -/
theorem pos_of_reach (hshare : Binary.ofFloat? share = some b) (hgrid : OnGrid b.exact)
    (htotal : ¬share < total) (h : reach Number.toFloat? share total variants = .ok (some v)) :
    Number.lt (.int 0) v.weight = true := by
  induction variants generalizing total with
  | nil => cases h
  | cons first rest ih =>
    obtain ⟨w, hw, ⟨hreached, hfound⟩ | ⟨hbelow, hrest⟩⟩ := reach_cons_ok h
    · obtain rfl := Option.some.inj hfound
      by_contra hweight
      have hnonpos := not_pos_of_toFloat (Bool.eq_false_of_not_eq_true hweight) hw
      exact Double.not_lt_add hshare hgrid htotal hnonpos hreached
    · exact ih hbelow hrest

theorem reach_none_iff : reach Number.toFloat? share total variants = .ok none ↔
    ∃ weights, Weighs Number.toFloat? variants weights ∧
      ∀ i < variants.length, ¬share < sumTo total weights (i + 1) := by
  constructor
  · intro h
    induction variants generalizing total with
    | nil => exact ⟨[], .nil, fun i hi => absurd hi (Nat.not_lt_zero i)⟩
    | cons first rest ih =>
      obtain ⟨w, hw, ⟨-, hfound⟩ | ⟨hfirst, hrest⟩⟩ := reach_cons_ok h
      · cases hfound
      · obtain ⟨weights, hweights, hbelow⟩ := ih hrest
        refine ⟨w :: weights, .cons hw hweights, fun i hi => ?_⟩
        cases i with
        | zero => exact hfirst
        | succ i => exact hbelow i (by simpa using hi)
  · rintro ⟨weights, hweights, hbelow⟩
    exact reach_of_not_lt hweights hbelow

theorem exists_of_unit (hlow : 0 ≤ x) (hhigh : x < 1) :
    ∃ b, Binary.ofFloat? x = some b ∧ 0 ≤ b.exact ∧ b.exact < 1 := by
  rw [show (1 : Float) = 1.0 by decide] at hhigh
  have hbetween := Double.exists_between Binary.ofFloat?_zero ofFloat?_one hlow hhigh
  rwa [exact_zero_double, exact_one] at hbetween

/-- A variant without weight gets those that no sum of weights is above, if it is the last one, and
nobody else. -/
theorem unweighted_iff_left_over (he : e.Accepted) (hv : v ∈ e.variants)
    (hweight : Number.lt (.int 0) v.weight = false)
    (hlow : 0 ≤ buckets (e.id ++ ":" ++ visitor)) (hhigh : buckets (e.id ++ ":" ++ visitor) < 1) :
    e.assign buckets visitor = .ok (some v.id) ↔
      e.isInTraffic buckets visitor = true ∧ e.variants.getLast? = some v ∧
        ∃ weights, Weighs Number.toFloat? e.variants weights ∧ ∀ i < e.variants.length,
          ¬buckets (e.id ++ ":" ++ visitor) < sumTo 0.0 weights (i + 1) := by
  rw [← reach_none_iff]
  constructor
  · intro h
    cases htraffic : e.isInTraffic buckets visitor with
    | false =>
      rw [assign_of_left_out htraffic] at h
      cases h
    | true =>
      refine ⟨rfl, ?_⟩
      obtain ⟨b, hb, hnonneg, hlt⟩ := exists_of_unit hlow hhigh
      have hgrid := (Binary.isDouble_of_ofFloat? hb).onGrid_of_le_two hnonneg (by linarith)
      have hstart : ¬buckets (e.id ++ ":" ++ visitor) < e.floatSum 0 := by
        rw [lt_iff_exact hb (ofFloat?_floatSum_zero e), exact_zero_double]
        exact not_lt.mpr hnonneg
      rw [assign_of_traffic htraffic, variantAt, variantBy] at h
      obtain ⟨found, hfound, hid⟩ := map_ok h
      obtain ⟨reached, hreached, hfound⟩ := bind_ok hfound
      obtain rfl := Except.ok.inj hfound
      obtain ⟨u, hu, hname⟩ := Option.map_eq_some_iff.mp hid
      cases reached with
      | some reached =>
        obtain rfl := Option.some.inj hu
        obtain rfl := List.inj_on_of_nodup_map he.nodup_variants (mem_of_reach hreached) hv hname
        -- It would have been reached by its own weight.
        rw [pos_of_reach hb hgrid hstart hreached] at hweight
        cases hweight
      | none =>
        have hlast : e.variants.getLast? = some u := hu
        obtain rfl := List.inj_on_of_nodup_map he.nodup_variants (List.mem_of_getLast? hlast) hv hname
        exact ⟨hlast, hreached⟩
  · rintro ⟨htraffic, hlast, hnone⟩
    rw [assign_of_traffic htraffic, variantAt, variantBy, hnone, hlast]
    rfl

/-- Its weights add up to a little less than one, and the last one is zero. -/
def restedExperiment : Experiment where
  id := "exp"
  site := "s"
  name := "N"
  variants := [⟨"on", "On", .float 0.9995⟩, ⟨"off", "Off", .int 0⟩]

theorem restedExperiment_accepted : restedExperiment.Accepted := by
  rw [Accepted]
  decide +kernel

/-- The share of one of its visitors, just above the sum of the weights. -/
theorem rested_share :
    bucket (restedExperiment.id ++ ":" ++ "visitor_331") = 0.9995602274095504 := by
  decide +kernel

theorem unweighted_iff_left_over_rested : restedExperiment.Accepted ∧
    (restedExperiment.assign bucket "visitor_331" = .ok (some "off") ↔
      restedExperiment.isInTraffic bucket "visitor_331" = true ∧
        restedExperiment.variants.getLast? = some ⟨"off", "Off", .int 0⟩ ∧
          ∃ weights, Weighs Number.toFloat? restedExperiment.variants weights ∧
            ∀ i < restedExperiment.variants.length,
              ¬bucket (restedExperiment.id ++ ":" ++ "visitor_331") < sumTo 0.0 weights (i + 1)) :=
  ⟨restedExperiment_accepted,
    unweighted_iff_left_over restedExperiment_accepted (v := ⟨"off", "Off", .int 0⟩)
      (List.mem_cons_of_mem _ List.mem_cons_self) (by decide) (by rw [rested_share]; decide)
      (by rw [rested_share]; decide)⟩

/-- The last variant is switched off, and a visitor gets it. -/
theorem rested_gets_unweighted : restedExperiment.Accepted ∧
    Number.lt (.int 0) (.int 0) = false ∧
    0 ≤ bucket (restedExperiment.id ++ ":" ++ "visitor_331") ∧
    bucket (restedExperiment.id ++ ":" ++ "visitor_331") < 1 ∧
    restedExperiment.assign bucket "visitor_331" = .ok (some "off") := by
  refine ⟨restedExperiment_accepted, by decide, ?_, ?_, ?_⟩
  · rw [rested_share]
    decide
  · rw [rested_share]
    decide
  · rw [assign_of_traffic (by decide), rested_share]
    decide +kernel

end LeftOver

end Experiment

end CohortAnalytics
