import CohortAnalytics.Proofs.Query.Groups
import CohortAnalytics.Proofs.Service.VariantAnswers

/-!
The attribution of sessions to variants. Each event pairs experiments with variants in two parallel
lists; of all its pairs only the one of the experiment that is counted matters, wherever it stands.
-/

namespace CohortAnalytics

open Inquiry

abbrev VariantPair := Option String × Option String

def VariantPair.isOf (experiment : String) (p : VariantPair) : Bool := p.1 == some experiment

/-- Pairs put into another order, and pairs of other experiments that come or go. -/
inductive Rearranged (experiment : String) : List VariantPair → List VariantPair → Prop
  | order {ps qs : List VariantPair} (h : ps.Perm qs) : Rearranged experiment ps qs
  | come {p : VariantPair} (ps : List VariantPair) (h : p.1 ≠ some experiment) :
      Rearranged experiment ps (p :: ps)
  | gone {p : VariantPair} (ps : List VariantPair) (h : p.1 ≠ some experiment) :
      Rearranged experiment (p :: ps) ps
  | trans {ps qs rs : List VariantPair} (h : Rearranged experiment ps qs)
      (h' : Rearranged experiment qs rs) : Rearranged experiment ps rs

theorem Rearranged.own_perm {experiment : String} {ps qs : List VariantPair}
    (h : Rearranged experiment ps qs) :
    (ps.filter (VariantPair.isOf experiment)).Perm (qs.filter (VariantPair.isOf experiment)) := by
  induction h with
  | order h => exact h.filter _
  | come ps h => rw [List.filter_cons_of_neg (by simpa [VariantPair.isOf] using h)]
  | gone ps h => rw [List.filter_cons_of_neg (by simpa [VariantPair.isOf] using h)]
  | trans _ _ ih ih' => exact ih.trans ih'

namespace StoredEvent

variable {e : StoredEvent} {experiment variant : String} {ps : List VariantPair}

/-- The experiments of an event with their variants. -/
def pairs (e : StoredEvent) : List VariantPair := e.experimentIds.zip e.variantIds

def withPairs (ps : List VariantPair) (e : StoredEvent) : StoredEvent :=
  { e with experimentIds := ps.map Prod.fst, variantIds := ps.map Prod.snd }

/-- Each experiment stands once, with a variant beside it. -/
structure IsPaired (e : StoredEvent) : Prop where
  nodup : e.experimentIds.Nodup
  parallel : e.experimentIds.length = e.variantIds.length

theorem pairs_withPairs : (e.withPairs ps).pairs = ps := by
  rw [pairs, withPairs, List.zip_map']
  exact List.map_id _

/-- The variant stands in the experiment's first pair. -/
theorem variantIn?_eq (e : StoredEvent) (experiment : String) :
    e.variantIn? experiment = (e.pairs.find? (VariantPair.isOf experiment)).bind Prod.snd := by
  rw [variantIn?, pairs]
  generalize e.experimentIds = ids
  generalize e.variantIds = variants
  induction ids generalizing variants with
  | nil => rfl
  | cons id ids ih =>
    cases variants with
    | nil => cases List.findIdx? (· == some experiment) (id :: ids) <;> rfl
    | cons v variants =>
      rw [List.findIdx?_cons, List.zip_cons_cons, List.find?_cons]
      by_cases hown : id == some experiment
      · simp [VariantPair.isOf, hown]
      · have hrest := ih variants
        simp only [hown, VariantPair.isOf, Bool.false_eq_true, if_false, Option.bind_map] at hrest ⊢
        exact hrest

theorem takesPartIn_eq (h : e.experimentIds.length = e.variantIds.length) (experiment : String) :
    e.takesPartIn experiment = (e.pairs.find? (VariantPair.isOf experiment)).isSome := by
  have hids : e.experimentIds = e.pairs.map Prod.fst := by
    rw [pairs, List.map_fst_zip h.le]
  rw [takesPartIn, hids, List.contains_eq_any_beq, List.any_map, List.isSome_find?]
  exact congrArg (List.any _) (funext fun p => by simp [VariantPair.isOf, eq_comm])

theorem IsPaired.own_cases (h : e.IsPaired) (experiment : String) :
    e.pairs.filter (VariantPair.isOf experiment) = [] ∨
      ∃ v, e.pairs.filter (VariantPair.isOf experiment) = [(some experiment, v)] := by
  have hsame : ∀ p ∈ e.pairs.filter (VariantPair.isOf experiment), p.1 = some experiment := by
    intro p hp
    simpa [VariantPair.isOf] using (List.mem_filter.mp hp).2
  have hnodup : ((e.pairs.filter (VariantPair.isOf experiment)).map Prod.fst).Nodup := by
    refine List.Nodup.sublist (List.filter_sublist.map _) ?_
    rw [pairs, List.map_fst_zip h.parallel.le]
    exact h.nodup
  match hown : e.pairs.filter (VariantPair.isOf experiment) with
  | [] => exact .inl rfl
  | [(id, v)] =>
    rw [hown] at hsame
    obtain rfl : id = some experiment := hsame (id, v) (by simp)
    exact .inr ⟨v, rfl⟩
  | p :: q :: _ =>
    rw [hown] at hsame hnodup
    simp [hsame p (by simp), hsame q (by simp)] at hnodup

/-- Where the order and the other experiments change, the experiment's own pair is found again. -/
theorem IsPaired.find?_own (h : e.IsPaired) (hps : Rearranged experiment e.pairs ps) :
    ps.find? (VariantPair.isOf experiment) = e.pairs.find? (VariantPair.isOf experiment) := by
  have hperm := hps.own_perm
  have hsame : ps.filter (VariantPair.isOf experiment) =
      e.pairs.filter (VariantPair.isOf experiment) := by
    rcases h.own_cases experiment with hown | ⟨v, hown⟩
    · rw [hown] at hperm ⊢
      exact List.perm_nil.mp hperm.symm
    · rw [hown] at hperm ⊢
      exact List.perm_singleton.mp hperm.symm
  rw [← List.head?_filter, ← List.head?_filter, hsame]

theorem IsPaired.variantIn?_iff (h : e.IsPaired) :
    e.variantIn? experiment = some variant ↔ (some experiment, some variant) ∈ e.pairs := by
  have hown : VariantPair.isOf experiment (some experiment, some variant) = true := by
    simp [VariantPair.isOf]
  have hmem : (some experiment, some variant) ∈ e.pairs ↔
      (some experiment, some variant) ∈ e.pairs.filter (VariantPair.isOf experiment) := by
    simp [List.mem_filter, hown]
  rw [variantIn?_eq, ← List.head?_filter, hmem]
  rcases h.own_cases experiment with hown | ⟨v, hown⟩
  · simp [hown]
  · simp [hown, eq_comm]

/-- The events that a count of the experiment's variants does not tell apart. -/
structure Alike (experiment : String) (e e' : StoredEvent) : Prop where
  site : e.site = e'.site
  session : e.session = e'.session
  type : e.type = e'.type
  timestamp : e.timestamp = e'.timestamp
  data : e.data = e'.data
  takesPart : e.takesPartIn experiment = e'.takesPartIn experiment
  variant : e.variantIn? experiment = e'.variantIn? experiment

theorem IsPaired.alike (h : e.IsPaired) (hps : Rearranged experiment e.pairs ps) :
    Alike experiment e (e.withPairs ps) := by
  have hparallel : (e.withPairs ps).experimentIds.length = (e.withPairs ps).variantIds.length := by
    simp [withPairs]
  refine ⟨rfl, rfl, rfl, rfl, rfl, ?_, ?_⟩
  · rw [takesPartIn_eq h.parallel, takesPartIn_eq hparallel, pairs_withPairs, h.find?_own hps]
  · rw [variantIn?_eq, variantIn?_eq, pairs_withPairs, h.find?_own hps]

end StoredEvent

namespace EventTable

/-- The same events, whose pairs are in another order and may have lost and found pairs of other
experiments. -/
def Reassigned (experiment : String) (t t' : EventTable) : Prop :=
  List.Forall₂ (fun e e' => ∃ ps, Rearranged experiment e.pairs ps ∧ e' = e.withPairs ps) t.rows t'.rows

/-- The sessions with an event of a site in a window that pairs an experiment with a variant. -/
def sessionsPairing (t : EventTable) (site : String) (start finish : Instant)
    (experiment variant : String) : Set String :=
  {s | ∃ e ∈ t.rows, e.site = site ∧ start.micros ≤ e.timestamp.micros ∧
    e.timestamp.micros ≤ finish.micros ∧ (some experiment, some variant) ∈ e.pairs ∧ e.session = s}

variable {experiment variant : String} {t t' : EventTable} {scope : Scope} {start finish : Instant}

theorem Reassigned.alike (h : t.Reassigned experiment t') (ht : ∀ e ∈ t.rows, e.IsPaired) :
    List.Forall₂ (StoredEvent.Alike experiment) t.rows t'.rows := by
  refine List.Forall₂.imp ?_ ((List.forall₂_and_left _ _).mpr ⟨ht, h⟩)
  rintro e _ ⟨he, ps, hps, rfl⟩
  exact he.alike hps

theorem coe_sessions_enrolled (ht : ∀ e ∈ t.rows, e.IsPaired) :
    ((t.enrolled scope start finish experiment variant).map StoredEvent.session).toFinset =
      t.sessionsPairing scope.site start finish experiment variant := by
  ext s
  simp only [List.coe_toFinset, Set.mem_ofPred_eq, List.mem_map, mem_enrolled, sessionsPairing, and_assoc]
  refine exists_congr fun e => and_congr_right fun he => ?_
  rw [(ht e he).variantIn?_iff]

end EventTable

section Blind

variable {experiment goalEvent : String} {rows rows' : List StoredEvent}

theorem sessionCount_alike (h : List.Forall₂ (StoredEvent.Alike experiment) rows rows') :
    Measure.sessionCount rows = Measure.sessionCount rows' := by
  rw [Measure.sessionCount, Measure.sessionCount, map_eq_of_forall₂ (h.imp fun _ _ he => he.session)]

theorem converts_alike {e e' : StoredEvent} (h : StoredEvent.Alike experiment e e') :
    Measure.converts experiment goalEvent e = Measure.converts experiment goalEvent e' := by
  simp only [Measure.converts, StoredEvent.payload?, h.type, h.data]

theorem variants_blind (experiment goalEvent : String) (scope : Scope) (start finish : Instant) :
    ((variantsShape experiment goalEvent).query scope.site start finish []).Blind
      (StoredEvent.Alike experiment) where
  holds c hc e e' he := by
    obtain ⟨d, hd, hholds⟩ := @Filter.joined?_of_isTest { scope with predicate := [] }
      (variantsShape experiment goalEvent) start finish
      (variantsShape_isSound experiment goalEvent).filters
    obtain rfl := Option.some.inj (hc.symm.trans hd)
    rw [hholds, hholds]
    simp [Scope.owns, variantsShape, Filter.lets, Filter.takesPart, Filter.ofTest, Clause.test,
      Clause.holds_single, allHold, EventTest.holds, Predicate.holds, he.site, he.timestamp, he.takesPart]
  key e e' he := congrArg (fun v => [v]) he.variant
  value m hm rows rows' hrows := by
    rcases List.mem_pair.mp hm with rfl | rfl
    · exact congrArg (fun n : ℕ => Number.int n) (sessionCount_alike hrows)
    · exact congrArg (fun n : ℕ => Number.int n)
        (sessionCount_alike (filter_of_forall₂ hrows fun _ _ he => converts_alike he))
  unordered := rfl

end Blind

/-- Where an experiment's pair stands in an event and what other pairs the event has is nothing to the
counts of its variants. The users of a variant are the sessions with an event that pairs the two. -/
theorem variantCounts_reassigned (experiment goalEvent : String) (scope : Scope) {t t' : EventTable}
    (ht : ∀ e ∈ t.rows, e.IsPaired) (hreassigned : t.Reassigned experiment t') :
    ((variantCounts experiment goalEvent scope).run Store.table t').outcome =
        ((variantCounts experiment goalEvent scope).run Store.table t).outcome ∧
      ∀ start finish, scope.window.resolve? scope.now = some (start, finish) →
        ∃ counts, (variantCounts experiment goalEvent scope).Gives t counts ∧ counts.names.Nodup ∧
          ∀ variant,
            (variant ∈ counts.names ↔
              (t.sessionsPairing scope.site start finish experiment variant).Nonempty) ∧
            ∀ row, (variant, row) ∈ counts → row.get "users" =
              .int (t.sessionsPairing scope.site start finish experiment variant).ncard := by
  constructor
  · refine (Inquiry.outcome_bind_pure (aggregate_agrees ?_ (hreassigned.alike ht)) _).symm
    exact fun start finish => variants_blind experiment goalEvent scope start finish
  · intro start finish hwindow
    obtain ⟨counts, hcounts, hnames, hmem, hrows⟩ :=
      variantCounts_gives experiment goalEvent hwindow t
    refine ⟨counts, hcounts, hnames, fun variant => ⟨?_, fun row hrow => ?_⟩⟩
    · rw [hmem, ← EventTable.coe_sessions_enrolled ht, Finset.coe_nonempty, List.toFinset_nonempty_iff]
      simp [List.eq_nil_iff_forall_not_mem]
    · rw [hrows variant row hrow, users_variantRow, ← EventTable.coe_sessions_enrolled ht,
        Set.ncard_coe_finset, ← Measure.sessionCount_eq]

section Moved

/-- A click in two experiments, and the same click after one of them has given way to a third. -/
def clickIn (ps : List VariantPair) : EventTable := ⟨[(AggregateShape.clickAt "s").withPairs ps]⟩

def formerPairs : List VariantPair := [(some "x", some "a"), (some "y", some "b")]

def laterPairs : List VariantPair := [(some "z", some "c"), (some "x", some "a")]

theorem rearranged_laterPairs : Rearranged "x" formerPairs laterPairs :=
  .trans (.order (List.Perm.swap _ _ _))
    (.trans (.gone (p := (some "y", some "b")) _ (by decide))
      (.come (p := (some "z", some "c")) _ (by decide)))

/-- The click counts for its variant of the first experiment as before. -/
theorem variantCounts_reassigned_click :
    let counting := variantCounts "x" "signup" (AggregateShape.momentAt "s")
    (counting.run Store.table (clickIn laterPairs)).outcome =
        (counting.run Store.table (clickIn formerPairs)).outcome ∧
      ∃ counts, counting.Gives (clickIn formerPairs) counts ∧ "a" ∈ counts.names ∧
        ∀ row, ("a", row) ∈ counts → row.get "users" = .int 1 := by
  intro counting
  have hpaired : ∀ e ∈ (clickIn formerPairs).rows, e.IsPaired := by
    simp only [clickIn, List.forall_mem_singleton]
    exact ⟨by decide, rfl⟩
  have hreassigned : (clickIn formerPairs).Reassigned "x" (clickIn laterPairs) :=
    .cons ⟨laterPairs, rearranged_laterPairs, rfl⟩ .nil
  obtain ⟨hsame, hgives⟩ := variantCounts_reassigned "x" "signup" (AggregateShape.momentAt "s") hpaired
    hreassigned
  obtain ⟨counts, hcounts, -, hvariants⟩ := hgives default default rfl
  have hsessions : (clickIn formerPairs).sessionsPairing "s" default default "x" "a" = {"v"} := by
    ext s
    simp [EventTable.sessionsPairing, clickIn, formerPairs, StoredEvent.pairs, StoredEvent.withPairs,
      AggregateShape.clickAt, eq_comm]
  obtain ⟨hmem, hrows⟩ := hvariants "a"
  refine ⟨hsame, counts, hcounts, hmem.mpr ?_, fun row hrow => (hrows row hrow).trans ?_⟩
  · exact ⟨"v", hsessions ▸ rfl⟩
  · rw [show (AggregateShape.momentAt "s").site = "s" from rfl, hsessions, Set.ncard_singleton]
    rfl

end Moved

end CohortAnalytics
