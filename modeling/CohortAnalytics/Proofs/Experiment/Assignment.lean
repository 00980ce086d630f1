import CohortAnalytics.Experiment.Assignment
import CohortAnalytics.Proofs.Entries
import CohortAnalytics.Proofs.Results

/-!
The variants of a visitor over many experiments. Each experiment chooses on its own, and the choices
are entered one after another. Among experiments with distinct ids each that is running has its own
variant for the visitor, and no other has one.
-/

namespace CohortAnalytics

namespace Experiment

variable {buckets : Bucketing} {experiments : List Experiment} {assigned : Entries String}
  {visitor : String} {e : Experiment} {chosen : List (Experiment × Option String)}

/-- What is asked of an experiment besides the sum of its weights. -/
structure IsComposed (e : Experiment) : Prop where
  enough : 2 ≤ e.variants.length
  nodup_variants : (e.variants.map Variant.id).Nodup
  traffic : (Number.le (.int 0) e.traffic && Number.le e.traffic (.int 100)) = true
  nodup_goals : (e.goals.map Goal.id).Nodup

theorem accepted_iff : e.Accepted ↔ e.checkWeights = .ok () ∧ e.IsComposed := by
  rw [Accepted, check]
  constructor
  · intro h
    obtain ⟨_, hweights, h⟩ := bind_ok h
    obtain ⟨hfew, h⟩ := guard_ok h
    obtain ⟨hrepeated, h⟩ := guard_ok h
    obtain ⟨htraffic, h⟩ := guard_ok h
    have hgoals : (e.goals.map Goal.id).Nodup := by
      by_contra hgoals
      rw [if_pos hgoals] at h
      cases h
    exact ⟨hweights, not_lt.mp hfew, not_not.mp hrepeated, not_not.mp htraffic, hgoals⟩
  · rintro ⟨hweights, henough, hvariants, htraffic, hgoals⟩
    rw [ok_bind hweights]
    dsimp only
    rw [if_neg (not_lt.mpr henough), if_neg (not_not.mpr hvariants), if_neg (not_not.mpr htraffic),
      if_neg (not_not.mpr hgoals)]
    rfl

theorem Accepted.nodup_variants (h : e.Accepted) : (e.variants.map Variant.id).Nodup :=
  (accepted_iff.mp h).2.nodup_variants

theorem IsComposed.variants_ne_nil (h : e.IsComposed) : e.variants ≠ [] := by
  rw [← List.length_pos_iff]
  exact Nat.lt_of_lt_of_le Nat.two_pos h.enough

/-- The variant that the visitor gets as long as the experiment runs. -/
def runningVariant (buckets : Bucketing) (visitor : String) (e : Experiment) :
    Except Failure (Option String) :=
  if e.status = .running then e.assign buckets visitor else .ok none

def enter (assigned : Entries String) (choice : Experiment × Option String) : Entries String :=
  match choice.2 with
  | some variant => assigned.put choice.1.id variant
  | none => assigned

/-- Experiments that choose one after another, on top of what is assigned already. -/
def enterAll (buckets : Bucketing) (visitor : String) (assigned : Entries String)
    (experiments : List Experiment) : Except Failure (Entries String) :=
  experiments.foldlM (fun assigned e => do return enter assigned (e, ← e.runningVariant buckets visitor))
    assigned

theorem assignAll_eq_enterAll (buckets : Bucketing) (experiments : List Experiment) (visitor : String) :
    assignAll buckets experiments visitor = enterAll buckets visitor [] experiments := by
  rw [assignAll, enterAll]
  congr 1
  funext assigned e
  rw [runningVariant]
  split_ifs
  · congr 1
    funext variant
    cases variant <;> rfl
  · rfl

theorem assignAll_eq (buckets : Bucketing) (experiments : List Experiment) (visitor : String) :
    assignAll buckets experiments visitor =
      (fun variants => (experiments.zip variants).foldl enter []) <$>
        experiments.mapM (runningVariant buckets visitor) := by
  rw [assignAll_eq_enterAll, enterAll, foldlM_eq_map_mapM]

/-- The pair of an experiment and its variant, where it has one. -/
def pair? (choice : Experiment × Option String) : Option (String × String) :=
  choice.2.map fun variant => (choice.1.id, variant)

theorem foldl_enter (hdistinct : (assigned.names ++ chosen.map fun x => x.1.id).Nodup) :
    chosen.foldl enter assigned = assigned ++ chosen.filterMap pair? := by
  induction chosen generalizing assigned with
  | nil => simp
  | cons x rest ih =>
    obtain ⟨e, variant⟩ := x
    cases variant with
    | none =>
      have hsame : enter assigned (e, none) = assigned := rfl
      rw [List.foldl_cons, List.filterMap_cons_none (by rfl), hsame]
      exact ih (hdistinct.sublist (by simp))
    | some variant =>
      have hnew : e.id ∉ assigned.names := by
        intro hmem
        rw [List.map_cons] at hdistinct
        exact (List.nodup_append.mp hdistinct).2.2 _ hmem _ List.mem_cons_self rfl
      have hput : enter assigned (e, some variant) = assigned ++ [(e.id, variant)] :=
        Entries.put_of_not_mem hnew variant
      rw [List.foldl_cons, hput, List.filterMap_cons_some (by rfl), ih]
      · simp
      · simpa [Entries.names] using hdistinct

theorem find?_pairs {variant : Option String} (hdistinct : (chosen.map fun x => x.1.id).Nodup)
    (h : (e, variant) ∈ chosen) : Entries.find? e.id (chosen.filterMap pair?) = variant := by
  induction chosen with
  | nil => exact absurd h List.not_mem_nil
  | cons x rest ih =>
    obtain ⟨d, chosenVariant⟩ := x
    rw [List.map_cons, List.nodup_cons] at hdistinct
    rcases List.mem_cons.mp h with heq | hmem
    · obtain ⟨rfl, rfl⟩ := Prod.mk.inj heq
      cases variant with
      | some variant => exact if_pos rfl
      | none =>
        have hout : ¬(Entries.find? e.id (rest.filterMap pair?)).isSome = true := by
          rw [Entries.isSome_find?_iff]
          intro hname
          obtain ⟨pair, hpair, hid⟩ := List.mem_map.mp hname
          obtain ⟨y, hy, hpairOf⟩ := List.mem_filterMap.mp hpair
          obtain ⟨variant, -, rfl⟩ := Option.map_eq_some_iff.mp hpairOf
          exact hdistinct.1 (List.mem_map.mpr ⟨y, hy, hid⟩)
        rw [List.filterMap_cons_none (by rfl)]
        simpa using hout
    · have hne : d.id ≠ e.id := fun hid => hdistinct.1 (hid ▸ List.mem_map.mpr ⟨_, hmem, rfl⟩)
      cases chosenVariant with
      | some other =>
        rw [List.filterMap_cons_some (by rfl), Entries.find?, if_neg hne]
        exact ih hdistinct.2 hmem
      | none =>
        rw [List.filterMap_cons_none (by rfl)]
        exact ih hdistinct.2 hmem

/-- What was chosen for the experiments, in step with them. -/
structure Chooses (buckets : Bucketing) (visitor : String) (experiments : List Experiment)
    (chosen : List (Experiment × Option String)) : Prop where
  experiments_eq : chosen.map Prod.fst = experiments
  variant_eq : ∀ x ∈ chosen, x.1.runningVariant buckets visitor = .ok x.2

theorem assignAll_ok (h : assignAll buckets experiments visitor = .ok assigned) :
    ∃ chosen, Chooses buckets visitor experiments chosen ∧ assigned = chosen.foldl enter [] := by
  rw [assignAll_eq] at h
  obtain ⟨variants, hvariants, rfl⟩ := map_ok h
  obtain ⟨hlength, hvariant⟩ := List.forall₂_iff_zip.mp (mapM_ok hvariants)
  exact ⟨_, ⟨List.map_fst_zip hlength.le, fun x hx => hvariant hx⟩, rfl⟩

/-- Among distinct experiments the pairs stand in the order of the experiments. -/
theorem assigned_eq (hdistinct : (experiments.map Experiment.id).Nodup)
    (h : assignAll buckets experiments visitor = .ok assigned) :
    ∃ chosen, Chooses buckets visitor experiments chosen ∧ assigned = chosen.filterMap pair? ∧
      (chosen.map fun x => x.1.id).Nodup := by
  obtain ⟨chosen, hchosen, rfl⟩ := assignAll_ok h
  have hids : (chosen.map fun x => x.1.id).Nodup := by
    rw [← Function.comp_def, ← List.map_map, hchosen.experiments_eq]
    exact hdistinct
  exact ⟨chosen, hchosen, foldl_enter hids, hids⟩

/-- Each experiment has the variant that it chose by itself. -/
theorem find?_assigned (hdistinct : (experiments.map Experiment.id).Nodup) (he : e ∈ experiments)
    (h : assignAll buckets experiments visitor = .ok assigned) :
    e.runningVariant buckets visitor = .ok (assigned.find? e.id) := by
  obtain ⟨chosen, hchosen, rfl, hids⟩ := assigned_eq hdistinct h
  rw [← hchosen.experiments_eq] at he
  obtain ⟨⟨e, variant⟩, hx, rfl⟩ := List.mem_map.mp he
  rw [hchosen.variant_eq _ hx, find?_pairs hids hx]

theorem assign?_of_assignAll (h : assignAll buckets experiments visitor = .ok assigned)
    (hdistinct : (experiments.map Experiment.id).Nodup) (he : e ∈ experiments)
    (hrunning : e.status = .running) :
    e.assign? buckets visitor = assigned.find? e.id := by
  have hvariant := find?_assigned hdistinct he h
  rw [runningVariant, if_pos hrunning] at hvariant
  rw [assign?, hvariant]
  rfl

end Experiment

end CohortAnalytics
