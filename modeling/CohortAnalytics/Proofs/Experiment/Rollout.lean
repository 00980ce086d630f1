import CohortAnalytics.Proofs.Experiment.Assignment
import CohortAnalytics.Proofs.Number.Order

/-!
More traffic for an experiment. Whoever has a variant keeps it, for the variant comes from a bucket
that traffic has no part in, and the other experiments of a visitor do not notice. Only a weight that is
no double can stop a visitor who was left out before.
-/

namespace CohortAnalytics

theorem digestPrefix_lt (digest : List UInt8) : digestPrefix digest < 2 ^ 64 := by
  have hfold (bytes : List UInt8) (n : ℕ) :
      bytes.foldl (fun n b => n * 256 + b.toNat) n < (n + 1) * 256 ^ bytes.length := by
    induction bytes generalizing n with
    | nil => simp
    | cons b rest ih =>
      have hbyte : b.toNat < 256 := b.toNat_lt
      refine (ih (n * 256 + b.toNat)).trans_le ?_
      rw [List.length_cons, pow_succ', ← mul_assoc]
      gcongr
      omega
  calc digestPrefix digest < (0 + 1) * 256 ^ (digest.take 8).length := hfold _ 0
    _ ≤ (0 + 1) * 256 ^ 8 := by
        gcongr
        · norm_num
        · simp
    _ = 2 ^ 64 := by norm_num

theorem within_bucketBy (hash : List UInt8 → List UInt8) (key : String) :
    Within 0 1 (bucketBy hash key) := by
  have hlt : (digestPrefix (hash key.toUTF8.toList) : ℚ) ≤ (2 ^ 64 : ℕ) := by
    exact_mod_cast (digestPrefix_lt _).le
  refine Binary.ofQuotient_faithful false _ (by norm_num) 0 1 onGrid_zero onGrid_one ?_ ?_
  · rw [if_neg Bool.false_ne_true]
    positivity
  · rw [if_neg Bool.false_ne_true, div_le_one (by norm_num)]
    exact hlt

namespace Experiment

variable {buckets : Bucketing} {hash : List UInt8 → List UInt8} {visitor : String}
  {e wide : Experiment} {failure : Failure}

def withTraffic (e : Experiment) (traffic : Number) : Experiment := { e with traffic := traffic }

section Walk

variable {α : Type} [Add α] [LT α] [DecidableLT α] {weigh? : Number → Option α} {share total : α}
  {variants : List Variant}

theorem reach_cons_ok {first : Variant} {found : Option Variant}
    (h : reach weigh? share total (first :: variants) = .ok found) :
    ∃ w, weigh? first.weight = some w ∧ (share < total + w ∧ found = some first ∨
      ¬share < total + w ∧ reach weigh? share (total + w) variants = .ok found) := by
  rw [reach] at h
  split at h
  · cases h
  · next w hw =>
    dsimp only at h
    split_ifs at h with hreached
    · exact ⟨w, hw, .inl ⟨hreached, (Except.ok.inj h).symm⟩⟩
    · exact ⟨w, hw, .inr ⟨hreached, h⟩⟩

theorem mem_of_reach {v : Variant} (h : reach weigh? share total variants = .ok (some v)) :
    v ∈ variants := by
  induction variants generalizing total with
  | nil => cases h
  | cons first rest ih =>
    obtain ⟨w, -, ⟨-, hfound⟩ | ⟨-, hrest⟩⟩ := reach_cons_ok h
    · obtain rfl := Option.some.inj hfound
      exact List.mem_cons_self
    · exact List.mem_cons_of_mem _ (ih hrest)

theorem reach_error (h : reach weigh? share total variants = .error failure) :
    failure = .beyondRange ∧ ∃ v ∈ variants, weigh? v.weight = none := by
  induction variants generalizing total with
  | nil => cases h
  | cons first rest ih =>
    rw [reach] at h
    split at h
    · next hweight => exact ⟨(Except.error.inj h).symm, first, List.mem_cons_self, hweight⟩
    · dsimp only at h
      split_ifs at h
      obtain ⟨hfailure, v, hv, hweight⟩ := ih h
      exact ⟨hfailure, v, List.mem_cons_of_mem _ hv, hweight⟩

end Walk

/-- Whose variant a visitor has, or why there is none. -/
inductive Outcome (e : Experiment) : Except Failure (Option String) → Prop
  | chosen {v : Variant} (hv : v ∈ e.variants) : Outcome e (.ok (some v.id))
  | beyond {v : Variant} (hv : v ∈ e.variants) (hweight : v.weight.toFloat? = none) :
      Outcome e (.error .beyondRange)

theorem assign_of_traffic (h : e.isInTraffic buckets visitor = true) :
    e.assign buckets visitor =
      Option.map Variant.id <$> e.variantAt (buckets (e.id ++ ":" ++ visitor)) := by
  rw [assign, if_pos h]
  rfl

theorem assign_of_left_out (h : e.isInTraffic buckets visitor = false) :
    e.assign buckets visitor = .ok none := by
  rw [assign, if_neg (by simp [h])]
  rfl

theorem outcome_variantAt (hvariants : e.variants ≠ []) (share : Float) :
    e.Outcome (Option.map Variant.id <$> e.variantAt share) := by
  rw [variantAt, variantBy]
  cases hreach : reach Number.toFloat? share 0.0 e.variants with
  | error failure =>
    obtain ⟨rfl, v, hv, hweight⟩ := reach_error hreach
    exact .beyond hv hweight
  | ok found =>
    cases found with
    | some v => exact .chosen (mem_of_reach hreach)
    | none =>
      have hlast := List.getLast?_eq_some_getLast hvariants
      change e.Outcome (.ok (e.variants.getLast?.map Variant.id))
      rw [hlast]
      exact .chosen (List.getLast_mem hvariants)

theorem outcome_of_traffic (hvariants : e.variants ≠ []) (h : e.isInTraffic buckets visitor = true) :
    e.Outcome (e.assign buckets visitor) := by
  rw [assign_of_traffic h]
  exact outcome_variantAt hvariants _

/-- At no traffic nobody is entered, and at a hundred everybody. -/
structure EntersByTraffic (buckets : Bucketing) (visitor : String) (e : Experiment) : Prop where
  nobody : e.traffic.eqv (.int 0) = true →
    e.isInTraffic buckets visitor = false ∧ e.assign buckets visitor = .ok none
  everybody : e.traffic.eqv (.int 100) = true →
    e.isInTraffic buckets visitor = true ∧ e.Outcome (e.assign buckets visitor)

theorem not_isInTraffic_of_zero (h : e.traffic.eqv (.int 0) = true) :
    e.isInTraffic (bucketBy hash) visitor = false := by
  obtain ⟨-, -, hzero⟩ := Number.eqv_iff_position.mp h
  have hbucket : Within 0 100 (bucketBy hash (e.id ++ "_traffic:" ++ visitor) * 100) :=
    (within_bucketBy hash _).mul (show Within 100 100 100 by decide +kernel) le_rfl (by norm_num)
      onGrid_zero (onGrid_ofNat 100 (by norm_num)) (by norm_num) (by norm_num)
  obtain ⟨b, hb, hnonneg, -⟩ := hbucket
  rw [isInTraffic, Bool.or_eq_false_iff, Bool.eq_false_iff, Bool.eq_false_iff, Ne, Ne,
    Number.le_iff_position, Number.lt_iff_position, hzero, Number.position_float hb]
  constructor
  · rintro ⟨-, -, hle⟩
    simp only [Number.position] at hle
    have : (100 : ℚ) ≤ 0 := by exact_mod_cast hle
    norm_num at this
  · rintro ⟨-, -, hlt⟩
    simp only [Number.position] at hlt
    have : b.exact < 0 := by exact_mod_cast hlt
    exact absurd hnonneg (not_le.mpr this)

theorem isInTraffic_of_hundred (h : e.traffic.eqv (.int 100) = true) :
    e.isInTraffic buckets visitor = true := by
  obtain ⟨hproper, -, hhundred⟩ := Number.eqv_iff_position.mp h
  rw [isInTraffic, Bool.or_eq_true]
  exact .inl (Number.le_iff_position.mpr ⟨rfl, hproper, hhundred.ge⟩)

theorem entersByTraffic (he : e.Accepted) (hash : List UInt8 → List UInt8) (visitor : String) :
    EntersByTraffic (bucketBy hash) visitor e where
  nobody h := ⟨not_isInTraffic_of_zero h, assign_of_left_out (not_isInTraffic_of_zero h)⟩
  everybody h := ⟨isInTraffic_of_hundred h,
    outcome_of_traffic (accepted_iff.mp he).2.variants_ne_nil (isInTraffic_of_hundred h)⟩

theorem isInTraffic_mono {traffic : Number} (hle : e.traffic.le traffic = true)
    (h : e.isInTraffic buckets visitor = true) :
    (e.withTraffic traffic).isInTraffic buckets visitor = true := by
  rw [isInTraffic, Bool.or_eq_true] at *
  exact h.imp (Number.trans_le · hle) (Number.lt_of_lt_of_le · hle)

/-- Those in traffic have the variant of their bucket, however much traffic there is. -/
theorem assign_withTraffic {traffic : Number} (hle : e.traffic.le traffic = true)
    (h : e.isInTraffic buckets visitor = true) :
    (e.withTraffic traffic).assign buckets visitor = e.assign buckets visitor := by
  rw [assign_of_traffic h, assign_of_traffic (isInTraffic_mono hle h)]
  rfl

section Others

variable {a b : Entries String} {id : String}

theorem remove_enter_self (hid : e.id = id) (variant : Option String) :
    (enter a (e, variant)).remove id = a.remove id := by
  subst hid
  cases variant with
  | none => rfl
  | some variant => exact Entries.remove_put_self e.id variant a

theorem remove_enter (h : a.remove id = b.remove id) (variant : Option String) :
    (enter a (e, variant)).remove id = (enter b (e, variant)).remove id := by
  by_cases hid : e.id = id
  · rw [remove_enter_self hid, remove_enter_self hid, h]
  · cases variant with
    | none => exact h
    | some variant =>
      change Entries.remove id (a.put e.id variant) = Entries.remove id (b.put e.id variant)
      rw [Entries.remove_put_of_ne hid, Entries.remove_put_of_ne hid, h]

/-- The experiments that follow do not look at what is assigned already. -/
theorem remove_enterAll (h : a.remove id = b.remove id) (experiments : List Experiment) :
    Entries.remove id <$> enterAll buckets visitor a experiments =
      Entries.remove id <$> enterAll buckets visitor b experiments := by
  induction experiments generalizing a b with
  | nil => exact congrArg Except.ok h
  | cons e rest ih =>
    rw [enterAll, enterAll, List.foldlM_cons, List.foldlM_cons]
    cases e.runningVariant buckets visitor with
    | error _ => rfl
    | ok variant => exact ih (remove_enter h variant)

theorem enterAll_append (experiments others : List Experiment) :
    enterAll buckets visitor a (experiments ++ others) =
      enterAll buckets visitor a experiments >>= fun b => enterAll buckets visitor b others :=
  List.foldlM_append

theorem enterAll_cons (e : Experiment) (rest : List Experiment) :
    enterAll buckets visitor a (e :: rest) =
      e.runningVariant buckets visitor >>= fun variant =>
        enterAll buckets visitor (enter a (e, variant)) rest := by
  rw [enterAll, List.foldlM_cons]
  cases e.runningVariant buckets visitor <;> rfl

theorem runningVariant_error (h : e.runningVariant buckets visitor = .error failure) :
    e.status = .running ∧ e.assign buckets visitor = .error failure := by
  rw [runningVariant] at h
  split_ifs at h with hrunning
  exact ⟨hrunning, h⟩

theorem assign_error (h : e.assign buckets visitor = .error failure) :
    failure = .beyondRange ∧ e.isInTraffic buckets visitor = true ∧
      ∃ v ∈ e.variants, v.weight.toFloat? = none := by
  cases htraffic : e.isInTraffic buckets visitor with
  | false =>
    rw [assign_of_left_out htraffic] at h
    cases h
  | true =>
    rw [assign_of_traffic htraffic, map_error_iff, variantAt, variantBy] at h
    rcases bind_error_iff.mp h with hreach | ⟨_, -, h⟩
    · obtain ⟨hfailure, v, hv, hweight⟩ := reach_error hreach
      exact ⟨hfailure, rfl, v, hv, hweight⟩
    · cases h

theorem enterAll_error {experiments : List Experiment}
    (h : enterAll buckets visitor a experiments = .error failure) : failure = .beyondRange := by
  rw [enterAll, foldlM_eq_map_mapM, map_error_iff] at h
  obtain ⟨e, -, he⟩ := mapM_error h
  exact (assign_error (runningVariant_error he).2).1

theorem assignAll_around (before after : List Experiment) :
    assignAll buckets (before ++ e :: after) visitor =
      enterAll buckets visitor [] before >>= fun a => e.runningVariant buckets visitor >>=
        fun variant => enterAll buckets visitor (enter a (e, variant)) after := by
  simp only [assignAll_eq_enterAll, enterAll_append, enterAll_cons]

theorem remove_assignAll {variant other : Option String} (hid : wide.id = e.id)
    (he : e.runningVariant buckets visitor = .ok variant)
    (hwide : wide.runningVariant buckets visitor = .ok other) (before after : List Experiment) :
    Entries.remove e.id <$> assignAll buckets (before ++ e :: after) visitor =
      Entries.remove e.id <$> assignAll buckets (before ++ wide :: after) visitor := by
  rw [assignAll_around, assignAll_around, he, hwide]
  cases enterAll buckets visitor [] before with
  | error _ => rfl
  | ok a =>
    refine remove_enterAll ?_ after
    rw [remove_enter_self rfl, remove_enter_self hid]

theorem assignAll_stops (h : e.runningVariant buckets visitor = .error .beyondRange)
    (before after : List Experiment) :
    assignAll buckets (before ++ e :: after) visitor = .error .beyondRange := by
  rw [assignAll_around, h]
  cases hbefore : enterAll buckets visitor [] before with
  | error failure => exact congrArg Except.error (enterAll_error hbefore)
  | ok a => rfl

end Others

/-- A visitor comes into traffic and meets a weight that is no double. -/
structure Stops (buckets : Bucketing) (visitor : String) (e wide : Experiment) : Prop where
  running : e.status = .running
  left_out : e.isInTraffic buckets visitor = false
  weight : ∃ v ∈ e.variants, v.weight.toFloat? = none
  one : wide.assign buckets visitor = .error .beyondRange
  all : ∀ before after, assignAll buckets (before ++ wide :: after) visitor = .error .beyondRange

/-- What more traffic leaves as it is: the variants of the experiment, and all that the visitor has of
the others, whatever experiments stand around it. -/
structure Widens (buckets : Bucketing) (visitor : String) (e wide : Experiment) : Prop where
  keeps : ∀ variant, e.assign buckets visitor = .ok (some variant) →
    wide.assign buckets visitor = .ok (some variant)
  others : (∀ before after,
      Entries.remove e.id <$> assignAll buckets (before ++ e :: after) visitor =
        Entries.remove e.id <$> assignAll buckets (before ++ wide :: after) visitor) ∨
    Stops buckets visitor e wide

theorem widens_of_traffic {traffic : Number} (hle : e.traffic.le traffic = true)
    (h : e.isInTraffic buckets visitor = true) :
    Widens buckets visitor e (e.withTraffic traffic) where
  keeps variant hvariant := by rw [assign_withTraffic hle h, hvariant]
  others := by
    left
    intro before after
    have hsame : (e.withTraffic traffic).runningVariant buckets visitor =
        e.runningVariant buckets visitor := by
      rw [runningVariant, runningVariant, assign_withTraffic hle h]
      rfl
    rw [assignAll_around, assignAll_around, hsame]
    rfl

theorem widens_of_left_out (traffic : Number) (h : e.isInTraffic buckets visitor = false) :
    Widens buckets visitor e (e.withTraffic traffic) where
  keeps variant hvariant := by
    rw [assign_of_left_out h] at hvariant
    cases hvariant
  others := by
    have hnone : e.runningVariant buckets visitor = .ok none := by
      rw [runningVariant, assign_of_left_out h, ite_self]
    cases hwide : (e.withTraffic traffic).runningVariant buckets visitor with
    | ok variant => exact .inl (remove_assignAll rfl hnone hwide)
    | error failure =>
      obtain ⟨hrunning, hassign⟩ := runningVariant_error hwide
      obtain ⟨rfl, -, hweight⟩ := assign_error hassign
      exact .inr ⟨hrunning, h, hweight, hassign, assignAll_stops hwide⟩

/-- Whoever has a variant keeps it when traffic is raised, and what is assigned elsewhere stays. -/
theorem raising_traffic (hash : List UInt8 → List UInt8) {traffic : Number} (he : e.Accepted)
    (hwide : (e.withTraffic traffic).Accepted) (hle : e.traffic.le traffic = true)
    (visitor : String) :
    EntersByTraffic (bucketBy hash) visitor e ∧
      EntersByTraffic (bucketBy hash) visitor (e.withTraffic traffic) ∧
        Widens (bucketBy hash) visitor e (e.withTraffic traffic) := by
  refine ⟨entersByTraffic he hash visitor, entersByTraffic hwide hash visitor, ?_⟩
  cases htraffic : e.isInTraffic (bucketBy hash) visitor with
  | true => exact widens_of_traffic hle htraffic
  | false => exact widens_of_left_out traffic htraffic

theorem raising_traffic_checkout : (checkoutExperiment.withTraffic (.int 20)).Accepted ∧
    checkoutExperiment.Accepted ∧ Number.le (.int 20) (.int 100) = true ∧
    (checkoutExperiment.withTraffic (.int 20)).assign bucket "visitor_17" = .ok (some "control") ∧
    Widens bucket "visitor_17" (checkoutExperiment.withTraffic (.int 20)) checkoutExperiment := by
  have hnarrow : (checkoutExperiment.withTraffic (.int 20)).Accepted := by
    rw [Accepted]
    decide +kernel
  have hwide : ((checkoutExperiment.withTraffic (.int 20)).withTraffic (.int 100)).Accepted := by
    rw [Accepted]
    decide +kernel
  have hle : Number.le (.int 20) (.int 100) = true := by decide
  exact ⟨hnarrow, hwide, hle, by decide +kernel,
    (raising_traffic Digest.sha256 hnarrow hwide hle "visitor_17").2.2⟩

/-- The integers of its weights add up to one, and a float is too small for two of them. -/
def vastExperiment : Experiment where
  id := "a"
  site := "site_demo"
  name := "Vast"
  variants := [⟨"u", "u", .int (10 ^ 400)⟩, ⟨"v", "v", .int (-10 ^ 400)⟩, ⟨"w", "w", .int 1⟩]
  traffic := .int 0

theorem vastExperiment_stops : vastExperiment.Accepted ∧
    (vastExperiment.withTraffic (.int 100)).Accepted ∧
    assignAll bucket [vastExperiment, checkoutExperiment] "x" =
      .ok [("exp_checkout_cta_v1", "variant_a")] ∧
    assignAll bucket [vastExperiment.withTraffic (.int 100), checkoutExperiment] "x" =
      .error .beyondRange := by
  refine ⟨?_, ?_, ?_, ?_⟩
  · rw [Accepted]
    decide +kernel
  · rw [Accepted]
    decide +kernel
  · decide +kernel
  · decide +kernel

end Experiment

end CohortAnalytics
