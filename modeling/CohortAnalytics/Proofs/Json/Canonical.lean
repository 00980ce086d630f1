import CohortAnalytics.Json.Reader
import CohortAnalytics.Proofs.Entries
import CohortAnalytics.Proofs.Json.Readability
import Mathlib

/-!
Values that differ in the order of members only, and their one canonical form. What is read from a
text is such a value: a later member takes the place of an earlier one of its name.
-/

namespace CohortAnalytics

namespace Json

theorem sortMembers_perm (members : List (String × Json)) : (sortMembers members).Perm members :=
  List.mergeSort_perm _ _

theorem sortMembers_pairwise (members : List (String × Json)) :
    (sortMembers members).Pairwise fun a b => a.1 ≤ b.1 := by
  have hsorted : (sortMembers members).Pairwise fun a b => decide (a.1 ≤ b.1) = true := by
    apply List.pairwise_mergeSort
    · intro a b c hab hbc
      simp only [decide_eq_true_eq] at *
      exact String.le_trans hab hbc
    · intro a b
      simpa using String.le_total a.1 b.1
  simpa using hsorted

theorem sortMembers_of_names {members : List (String × Json)}
    (h : (Entries.names members).Pairwise (· ≤ ·)) : sortMembers members = members := by
  apply List.mergeSort_of_pairwise
  simpa using List.pairwise_map.mp h

theorem sortMembers_eq_iff {xs ys : List (String × Json)} (hx : (Entries.names xs).Nodup)
    (hy : (Entries.names ys).Nodup) :
    sortMembers xs = sortMembers ys ↔ ∀ name, Entries.find? name xs = Entries.find? name ys := by
  rw [← Entries.perm_iff_find? hx hy]
  constructor
  · intro h
    exact (sortMembers_perm xs).symm.trans (h ▸ sortMembers_perm ys)
  · intro h
    have hperm := ((sortMembers_perm xs).trans h).trans (sortMembers_perm ys).symm
    refine hperm.eq_of_pairwise ?_ (sortMembers_pairwise xs) (sortMembers_pairwise ys)
    rintro ⟨n, v⟩ ⟨n', w⟩ hv hw hle hge
    obtain rfl : n = n' := String.le_antisymm hle hge
    have hfirst := Entries.find?_of_mem hx ((sortMembers_perm xs).mem_iff.mp hv)
    have hsecond := Entries.find?_of_mem hy ((sortMembers_perm ys).mem_iff.mp hw)
    rw [(Entries.perm_iff_find? hx hy).mp h n, hsecond] at hfirst
    rw [Option.some.inj hfirst]

theorem sortedItems_eq_map (items : List Json) : sortedItems items = items.map sorted := by
  induction items with
  | nil => rw [sortedItems, List.map_nil]
  | cons v rest ih => rw [sortedItems, List.map_cons, ih]

theorem sortedMembers_eq_map (members : List (String × Json)) :
    sortedMembers members = members.map fun m => (m.1, m.2.sorted) := by
  induction members with
  | nil => rw [sortedMembers, List.map_nil]
  | cons m rest ih => rw [sortedMembers, List.map_cons, ih]

theorem names_sortedMembers (members : List (String × Json)) :
    Entries.names (sortedMembers members) = Entries.names members := by
  rw [sortedMembers_eq_map, Entries.names, Entries.names, List.map_map]
  rfl

mutual

/-- Induction on a value: on all items of an array and all members of an object at once. -/
@[elab_as_elim]
theorem induct {p : Json → Prop} (null : p .null) (bool : ∀ b, p (.bool b))
    (number : ∀ n, p (.number n)) (text : ∀ s, p (.text s))
    (array : ∀ items, (∀ v ∈ items, p v) → p (.array items))
    (object : ∀ members : List (String × Json), (∀ m ∈ members, p m.2) → p (.object members)) :
    ∀ v, p v
  | .null => null
  | .bool b => bool b
  | .number n => number n
  | .text s => text s
  | .array items => array items (inductItems null bool number text array object items)
  | .object members =>
    object members (inductMembers null bool number text array object members)

theorem inductItems {p : Json → Prop} (null : p .null) (bool : ∀ b, p (.bool b))
    (number : ∀ n, p (.number n)) (text : ∀ s, p (.text s))
    (array : ∀ items, (∀ v ∈ items, p v) → p (.array items))
    (object : ∀ members : List (String × Json), (∀ m ∈ members, p m.2) → p (.object members)) :
    ∀ items : List Json, ∀ v ∈ items, p v
  | [] => by simp
  | v :: rest => List.forall_mem_cons.mpr ⟨induct null bool number text array object v,
      inductItems null bool number text array object rest⟩

theorem inductMembers {p : Json → Prop} (null : p .null) (bool : ∀ b, p (.bool b))
    (number : ∀ n, p (.number n)) (text : ∀ s, p (.text s))
    (array : ∀ items, (∀ v ∈ items, p v) → p (.array items))
    (object : ∀ members : List (String × Json), (∀ m ∈ members, p m.2) → p (.object members)) :
    ∀ members : List (String × Json), ∀ m ∈ members, p m.2
  | [] => by simp
  | (_, v) :: rest => List.forall_mem_cons.mpr ⟨induct null bool number text array object v,
      inductMembers null bool number text array object rest⟩

end

/-- The members of every object have distinct names. -/
inductive WellFormed : Json → Prop
  | null : WellFormed .null
  | bool (b : Bool) : WellFormed (.bool b)
  | number (n : Number) : WellFormed (.number n)
  | text (s : String) : WellFormed (.text s)
  | array {items : List Json} (h : ∀ v ∈ items, WellFormed v) : WellFormed (.array items)
  | object {members : List (String × Json)} (hnames : (Entries.names members).Nodup)
      (h : ∀ m ∈ members, WellFormed m.2) : WellFormed (.object members)

/-- The same value up to the order of members. Integers, floats and truth values are kept apart,
and so are the two zeros among floats. -/
inductive Alike : Json → Json → Prop
  | null : Alike .null .null
  | bool (b : Bool) : Alike (.bool b) (.bool b)
  | number (n : Number) : Alike (.number n) (.number n)
  | text (s : String) : Alike (.text s) (.text s)
  | array {xs ys : List Json} (h : List.Forall₂ Alike xs ys) : Alike (.array xs) (.array ys)
  | object {xs ys : List (String × Json)}
      (h : ∀ name, Option.Rel Alike (Entries.find? name xs) (Entries.find? name ys)) :
      Alike (.object xs) (.object ys)

theorem map_sorted_eq_iff {xs ys : List Json}
    (h : ∀ v ∈ xs, ∀ w ∈ ys, v.sorted = w.sorted ↔ Alike v w) :
    xs.map sorted = ys.map sorted ↔ List.Forall₂ Alike xs ys := by
  induction xs generalizing ys with
  | nil =>
    cases ys with
    | nil => simp
    | cons w ws => simp
  | cons v vs ih =>
    cases ys with
    | nil => simp
    | cons w ws =>
      rw [List.map_cons, List.map_cons, List.cons.injEq, List.forall₂_cons,
        h v (by simp) w (by simp), ih fun v hv w hw =>
          h v (List.mem_cons_of_mem _ hv) w (List.mem_cons_of_mem _ hw)]

theorem optionMap_sorted_eq_iff {x y : Option Json}
    (h : ∀ v ∈ x, ∀ w ∈ y, v.sorted = w.sorted ↔ Alike v w) :
    x.map sorted = y.map sorted ↔ Option.Rel Alike x y := by
  cases x with
  | none =>
    cases y with
    | none => simp
    | some w => simp
  | some v =>
    cases y with
    | none => simp
    | some w => simpa using h v rfl w rfl

/-- Neither an array nor an object. -/
def IsScalar : Json → Prop
  | .array _ => False
  | .object _ => False
  | _ => True

theorem alike_iff_of_isScalar {v w : Json} (hv : v.IsScalar) : Alike v w ↔ v = w := by
  constructor
  · intro h
    cases h with
    | array h => exact hv.elim
    | object h => exact hv.elim
    | _ => rfl
  · rintro rfl
    cases v with
    | null => exact .null
    | bool b => exact .bool b
    | number n => exact .number n
    | text s => exact .text s
    | array items => exact hv.elim
    | object members => exact hv.elim

theorem sorted_eq_iff_of_isScalar {v w : Json} (hv : v.IsScalar) :
    v.sorted = w.sorted ↔ Alike v w := by
  rw [alike_iff_of_isScalar hv]
  cases v with
  | array items => exact hv.elim
  | object members => exact hv.elim
  | _ => cases w <;> simp [sorted]

/-- Values have one canonical form exactly when they are the same up to the order of members. -/
theorem sorted_eq_iff {v w : Json} (hv : v.WellFormed) (hw : w.WellFormed) :
    v.sorted = w.sorted ↔ Alike v w := by
  induction v using induct generalizing w with
  | null | bool | number | text => exact sorted_eq_iff_of_isScalar trivial
  | array items ih =>
    cases hv with
    | array hitems =>
    have hiff {items' : List Json} (h : ∀ v ∈ items', v.WellFormed) :
        items.map sorted = items'.map sorted ↔ List.Forall₂ Alike items items' :=
      map_sorted_eq_iff fun v hv w hw => ih v hv (hitems v hv) (h w hw)
    constructor
    · intro h
      cases hw with
      | array hitems' =>
        simp only [sorted, sortedItems_eq_map, Json.array.injEq] at h
        exact .array ((hiff hitems').mp h)
      | _ => simp [sorted] at h
    · rintro ⟨⟩
      rename_i items' h
      cases hw with
      | array hitems' => simp only [sorted, sortedItems_eq_map, (hiff hitems').mpr h]
  | object members ih =>
    cases hv with
    | object hnames hmembers =>
    have hiff {members' : List (String × Json)} (hnames' : (Entries.names members').Nodup)
        (h : ∀ m ∈ members', m.2.WellFormed) :
        sortMembers (sortedMembers members) = sortMembers (sortedMembers members') ↔
          ∀ name, Option.Rel Alike (Entries.find? name members) (Entries.find? name members') := by
      rw [sortMembers_eq_iff (by rwa [names_sortedMembers]) (by rwa [names_sortedMembers]),
        sortedMembers_eq_map, sortedMembers_eq_map]
      refine forall_congr' fun name => ?_
      rw [Entries.find?_map, Entries.find?_map]
      refine optionMap_sorted_eq_iff fun v hv w hw => ?_
      have hvMem := Entries.mem_of_find? hv
      have hwMem := Entries.mem_of_find? hw
      exact ih _ hvMem (hmembers _ hvMem) (h _ hwMem)
    constructor
    · intro h
      cases hw with
      | object hnames' hmembers' =>
        simp only [sorted, Json.object.injEq] at h
        exact .object ((hiff hnames' hmembers').mp h)
      | _ => simp [sorted] at h
    · rintro ⟨⟩
      rename_i members' h
      cases hw with
      | object hnames' hmembers' => simp only [sorted, (hiff hnames' hmembers').mpr h]

/-- Canonical texts agree exactly for values that are the same up to the order of members. -/
theorem canonical_eq_iff {v w : Json} (hv : v.WellFormed) (hw : w.WellFormed) :
    v.canonical = w.canonical ↔ Alike v w := by
  rw [← sorted_eq_iff hv hw, canonical, canonical, String.ofList_inj]
  constructor
  · intro h
    exact write_inj h
  · intro h
    rw [h]

/-- Values in their canonical form have one text exactly when they are equal. -/
theorem canonical_inj_of_sorted {v w : Json} (hv : v.sorted = v) (hw : w.sorted = w) :
    v.canonical = w.canonical ↔ v = w := by
  rw [canonical, canonical, hv, hw, String.ofList_inj]
  constructor
  · intro h
    exact write_inj h
  · intro h
    rw [h]

section Reading

variable {fuel : ℕ} {cs rest : List Char} {v : Json}

/-- What the members of a well-formed object are. -/
def AreMembers (members : List (String × Json)) : Prop :=
  (Entries.names members).Nodup ∧ ∀ m ∈ members, m.2.WellFormed

theorem areMembers_nil : AreMembers [] := ⟨by simp [Entries.names], by simp⟩

theorem AreMembers.put {members : List (String × Json)} (h : AreMembers members) (name : String)
    (hv : v.WellFormed) : AreMembers (Entries.put name v members) := by
  refine ⟨Entries.nodup_names_put h.1 name v, fun m hm => ?_⟩
  rcases Entries.mem_put hm with rfl | hm
  · exact hv
  · exact h.2 m hm

theorem readScalar?_wellFormed (h : readScalar? cs = some (v, rest)) : v.WellFormed := by
  have hconstants : ∀ c ∈ constants, c.2.WellFormed := by
    simp only [constants, List.forall_mem_cons]
    exact ⟨.null, .bool _, .bool _, .number _, .number _, .number _, List.forall_mem_nil _⟩
  have hnumber {negative : Bool} {ds : List Char}
      (hn : (readUnsigned? negative ds).map (fun read => (Json.number read.1, read.2)) = some (v, rest)) :
      v.WellFormed := by
    obtain ⟨n, -, heq⟩ := Option.map_eq_some_iff.mp hn
    obtain ⟨rfl, -⟩ := Prod.mk.inj heq
    exact .number _
  unfold readScalar? at h
  split at h
  · next found hfound =>
    obtain rfl := Option.some.inj h
    obtain ⟨c, hc, hword⟩ := List.exists_of_findSome?_eq_some hfound
    obtain ⟨tail, -, heq⟩ := Option.map_eq_some_iff.mp hword
    obtain ⟨rfl, -⟩ := Prod.mk.inj heq
    exact hconstants c hc
  · split at h
    · exact hnumber h
    · exact hnumber h

/-- Whatever is read with this much fuel is well-formed. -/
structure ReadsWell (fuel : ℕ) : Prop where
  value {cs rest : List Char} {v : Json} (h : readValue fuel cs = some (v, rest)) : v.WellFormed
  items {cs rest : List Char} {vs : List Json} (h : readItems fuel cs = some (vs, rest)) :
    ∀ v ∈ vs, v.WellFormed
  members {members read : List (String × Json)} {cs rest : List Char} (hmembers : AreMembers members)
    (h : readMembers fuel members cs = some (read, rest)) : AreMembers read

theorem readValue_wellFormed (ih : ReadsWell fuel) (h : readValue (fuel + 1) cs = some (v, rest)) :
    v.WellFormed := by
  rw [readValue] at h
  split at h
  · obtain ⟨_, -, heq⟩ := Option.map_eq_some_iff.mp h
    obtain ⟨rfl, -⟩ := Prod.mk.inj heq
    exact .text _
  · split at h
    · obtain ⟨rfl, -⟩ := Prod.mk.inj (Option.some.inj h)
      exact .array (by simp)
    · obtain ⟨⟨items, tail⟩, hitems, heq⟩ := Option.map_eq_some_iff.mp h
      obtain ⟨rfl, -⟩ := Prod.mk.inj heq
      exact .array (ih.items hitems)
  · split at h
    · obtain ⟨rfl, -⟩ := Prod.mk.inj (Option.some.inj h)
      exact .object List.nodup_nil (by simp)
    · obtain ⟨⟨members, tail⟩, hmembers, heq⟩ := Option.map_eq_some_iff.mp h
      obtain ⟨rfl, -⟩ := Prod.mk.inj heq
      obtain ⟨hnames, hvalues⟩ := ih.members areMembers_nil hmembers
      exact .object hnames hvalues
  · exact readScalar?_wellFormed h

theorem readItems_wellFormed (ih : ReadsWell fuel) {vs : List Json}
    (h : readItems (fuel + 1) cs = some (vs, rest)) : ∀ v ∈ vs, v.WellFormed := by
  rw [readItems] at h
  obtain ⟨⟨first, tail⟩, hfirst, h⟩ := Option.bind_eq_some_iff.mp h
  have hwell := ih.value hfirst
  dsimp only at h
  split at h
  · obtain ⟨⟨more, tail⟩, hmore, h⟩ := Option.bind_eq_some_iff.mp h
    obtain ⟨rfl, -⟩ := Prod.mk.inj (Option.some.inj h)
    exact List.forall_mem_cons.mpr ⟨hwell, ih.items hmore⟩
  · obtain ⟨rfl, -⟩ := Prod.mk.inj (Option.some.inj h)
    simpa using hwell
  · cases h

theorem readMembers_areMembers (ih : ReadsWell fuel) {members read : List (String × Json)}
    (hmembers : AreMembers members) (h : readMembers (fuel + 1) members cs = some (read, rest)) :
    AreMembers read := by
  rw [readMembers] at h
  split at h
  · obtain ⟨⟨name, tail⟩, -, h⟩ := Option.bind_eq_some_iff.mp h
    dsimp only at h
    split at h
    · obtain ⟨⟨value, tail⟩, hvalue, h⟩ := Option.bind_eq_some_iff.mp h
      have hput := hmembers.put (String.ofList name) (ih.value hvalue)
      dsimp only at h
      split at h
      · exact ih.members hput h
      · obtain ⟨rfl, -⟩ := Prod.mk.inj (Option.some.inj h)
        exact hput
      · cases h
    · cases h
  · cases h

theorem readsWell (fuel : ℕ) : ReadsWell fuel := by
  induction fuel with
  | zero => exact ⟨fun h => (by cases h), fun h => (by cases h), fun _ h => (by cases h)⟩
  | succ fuel ih => exact ⟨readValue_wellFormed ih, readItems_wellFormed ih, readMembers_areMembers ih⟩

theorem wellFormed_of_read? {s : String} (h : read? s = some v) : v.WellFormed := by
  rw [read?] at h
  split at h
  · next hread =>
    split_ifs at h
    obtain rfl := Option.some.inj h
    exact (readsWell _).value hread
  · cases h

end Reading

end Json

end CohortAnalytics
