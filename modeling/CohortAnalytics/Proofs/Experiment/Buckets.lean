import CohortAnalytics.Proofs.Experiment.Split

/-!
The buckets of digests, and who is left to the last variant. The bucket of a prefix is the double
nearest to its share of all prefixes. The last prefixes are so near to one that their bucket is one, and
no sum of weights that adds up to just one is above it.
-/

namespace CohortAnalytics

section Prefixes

variable {n m : ℕ}

theorem bucketOfPrefix_isNearest (hn : n < 2 ^ 64) : IsNearest ((n : ℚ) / 2 ^ 64) (bucketOfPrefix n) := by
  have hle : (n : ℚ) / (2 ^ 64 : ℕ) ≤ 1 := by
    rw [div_le_one (by norm_num)]
    exact_mod_cast hn.le
  have hnearest := Binary.isNearest_ofQuotient n (by positivity) onGrid_one hle
  rwa [Nat.cast_pow, Nat.cast_ofNat] at hnearest

theorem bucketOfPrefix_mono (hmn : m ≤ n) (hn : n < 2 ^ 64) : bucketOfPrefix m ≤ bucketOfPrefix n := by
  rcases hmn.eq_or_lt with rfl | hlt
  · obtain ⟨b, hb, -⟩ := bucketOfPrefix_isNearest hn
    rw [Double.le_iff_position (isNaN_of_ofFloat? hb) (isNaN_of_ofFloat? hb)]
  · apply (bucketOfPrefix_isNearest (hlt.trans hn)).le (bucketOfPrefix_isNearest hn)
    have : (m : ℚ) < n := by exact_mod_cast hlt
    gcongr

theorem bucketOfPrefix_nonneg (hn : n < 2 ^ 64) : 0 ≤ bucketOfPrefix n := by
  have hzero : bucketOfPrefix 0 = 0 := by decide
  rw [← hzero]
  exact bucketOfPrefix_mono n.zero_le hn

theorem bucketOfPrefix_lt_one (h : n + 1024 < 2 ^ 64) : bucketOfPrefix n < 1 := by
  have hlast : bucketOfPrefix (2 ^ 64 - 1025) < 1 := by decide
  exact Double.lt_of_le_of_lt (bucketOfPrefix_mono (by omega) (by norm_num)) hlast

/-- From here on the share is at most half a last place below one. -/
theorem bucketOfPrefix_eq_one (hn : n < 2 ^ 64) (h : 2 ^ 64 ≤ n + 1024) : bucketOfPrefix n = 1 := by
  have hfirst : bucketOfPrefix (2 ^ 64 - 1024) = 1.0 := by decide
  have hlast : bucketOfPrefix (2 ^ 64 - 1) = 1.0 := by decide
  have habove : bucketOfPrefix (2 ^ 64 - 1024) ≤ bucketOfPrefix n := bucketOfPrefix_mono (by omega) hn
  have hbelow : bucketOfPrefix n ≤ bucketOfPrefix (2 ^ 64 - 1) :=
    bucketOfPrefix_mono (by omega) (by norm_num)
  obtain ⟨b, hb, -⟩ := bucketOfPrefix_isNearest hn
  have hproper := isNaN_of_ofFloat? hb
  rw [hfirst, Double.le_iff_position rfl hproper, Number.position_float hb,
    Number.position_float Experiment.ofFloat?_one, Experiment.exact_one] at habove
  rw [hlast, Double.le_iff_position hproper rfl, Number.position_float hb,
    Number.position_float Experiment.ofFloat?_one, Experiment.exact_one] at hbelow
  have hexact : b.exact = 1 := by
    apply le_antisymm
    · exact_mod_cast hbelow
    · exact_mod_cast habove
  have hvalue := hexact.trans Experiment.exact_one.symm
  exact (Binary.eq_of_exact hb Experiment.ofFloat?_one hvalue (by rw [hexact]; norm_num)).trans (by decide)

end Prefixes

namespace Experiment

/-- The sums of the weights get as far as one. -/
def ReachesOne (variants : List Variant) : Prop :=
  ∃ k weights, Weighs Number.toFloat? (variants.take k) weights ∧ 1 ≤ sumTo 0.0 weights k

section Walk

variable {α : Type} [Add α] [LT α] [DecidableLT α] {weigh? : Number → Option α} {share total : α}
  {variants : List Variant} {weights : List α}

/-- A walk that starts at or below the share ends where the sums get above it, whatever comes after. -/
theorem exists_reach (rest : List Variant) (h : Weighs weigh? variants weights) (hstart : ¬share < total)
    (hend : share < weights.foldl (· + ·) total) :
    ∃ v ∈ variants, reach weigh? share total (variants ++ rest) = .ok (some v) := by
  induction h generalizing total with
  | nil => exact absurd hend hstart
  | @cons v w _ _ hfirst _ ih =>
    simp only [List.cons_append, reach, hfirst]
    by_cases hreached : share < total + w
    · exact ⟨v, List.mem_cons_self, if_pos hreached⟩
    · obtain ⟨found, hfound, hreach⟩ := ih hreached hend
      exact ⟨found, List.mem_cons_of_mem _ hfound, (if_neg hreached).trans hreach⟩

end Walk

variable {n : ℕ} {variants : List Variant} {share : Float}

theorem ReachesOne.exists_reach (h : ReachesOne variants) (hlow : 0 ≤ share) (hhigh : share < 1) :
    ∃ v ∈ variants, reach Number.toFloat? share 0.0 variants = .ok (some v) := by
  obtain ⟨k, weights, hweights, hone⟩ := h
  have hlength : weights.length ≤ k := by
    rw [← List.Forall₂.length_eq hweights]
    exact List.length_take_le k variants
  rw [sumTo, List.take_of_length_le hlength] at hone
  have hproper := (Double.isNaN_of_lt hhigh).1
  have hstart : ¬share < 0.0 := by
    rw [Double.le_iff_position rfl hproper] at hlow
    rw [Double.lt_iff_position hproper rfl, show (0.0 : Float) = 0 by decide]
    exact not_lt.mpr hlow
  obtain ⟨v, hv, hreach⟩ := Experiment.exists_reach (variants.drop k) hweights hstart
    (Double.lt_of_lt_of_le hhigh hone)
  rw [List.take_append_drop] at hreach
  exact ⟨v, List.mem_of_mem_take hv, hreach⟩

/-- Buckets grow with the prefix, and all but the last of them are below one. Weights whose sums get as
far as one leave nobody with such a bucket to the last variant, and those with a bucket of one only if no
sum is above one. -/
theorem left_over_only_at_one (hn : n < 2 ^ 64) :
    IsNearest ((n : ℚ) / 2 ^ 64) (bucketOfPrefix n) ∧
    (∀ m ≤ n, bucketOfPrefix m ≤ bucketOfPrefix n) ∧
    0 ≤ bucketOfPrefix n ∧ (bucketOfPrefix n < 1 ↔ n + 1024 < 2 ^ 64) ∧
    (2 ^ 64 ≤ n + 1024 → bucketOfPrefix n = 1) ∧
    ∀ variants, ReachesOne variants →
      (n + 1024 < 2 ^ 64 →
        ∃ v ∈ variants, reach Number.toFloat? (bucketOfPrefix n) 0.0 variants = .ok (some v)) ∧
      (2 ^ 64 ≤ n + 1024 →
        (reach Number.toFloat? (bucketOfPrefix n) 0.0 variants = .ok none ↔
          ∃ weights, Weighs Number.toFloat? variants weights ∧
            ∀ i < variants.length, ¬1 < sumTo 0.0 weights (i + 1))) := by
  refine ⟨bucketOfPrefix_isNearest hn, fun m hm => bucketOfPrefix_mono hm hn,
    bucketOfPrefix_nonneg hn, ⟨fun hlt => ?_, bucketOfPrefix_lt_one⟩, bucketOfPrefix_eq_one hn,
    fun variants hreaches => ⟨fun h => ?_, fun h => ?_⟩⟩
  · by_contra hlast
    rw [bucketOfPrefix_eq_one hn (not_lt.mp hlast)] at hlt
    exact absurd hlt (by decide)
  · exact hreaches.exists_reach (bucketOfPrefix_nonneg hn) (bucketOfPrefix_lt_one h)
  · rw [bucketOfPrefix_eq_one hn h]
    exact reach_none_iff

theorem reachesOne_checkout : ReachesOne checkoutExperiment.variants :=
  ⟨2, [0.5, 0.5], by rw [Weighs]; decide, by decide⟩

theorem left_over_only_at_one_checkout : 2 ^ 63 < 2 ^ 64 ∧ bucketOfPrefix (2 ^ 63) < 1 ∧
    ∃ v ∈ checkoutExperiment.variants,
      reach Number.toFloat? (bucketOfPrefix (2 ^ 63)) 0.0 checkoutExperiment.variants = .ok (some v) := by
  obtain ⟨-, -, -, hbelow, -, hreached⟩ := left_over_only_at_one (n := 2 ^ 63) (by norm_num)
  exact ⟨by norm_num, hbelow.mpr (by norm_num), (hreached _ reachesOne_checkout).1 (by norm_num)⟩

/-- The bucket of a digest that has all bits set is one, and the weights, which add up to one, do not
get above it. -/
theorem checkout_left_over_at_one :
    let digest : List UInt8 := List.replicate 32 255
    digestPrefix digest = 2 ^ 64 - 1 ∧ ¬bucketOfPrefix (digestPrefix digest) < 1 ∧
      checkoutExperiment.Accepted ∧ ReachesOne checkoutExperiment.variants ∧
      reach Number.toFloat? (bucketOfPrefix (digestPrefix digest)) 0.0 checkoutExperiment.variants =
        .ok none := by
  refine ⟨by decide, by decide, ?_, reachesOne_checkout, by decide⟩
  rw [Accepted]
  decide

end Experiment

end CohortAnalytics
