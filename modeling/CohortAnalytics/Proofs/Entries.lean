import CohortAnalytics.Entries
import Mathlib

/-!
Entries seen through their look-up: what is found after an entry goes, and when two lists of
entries are the same up to their order.
-/

namespace CohortAnalytics

namespace Entries

variable {α β : Type}

theorem find?_remove_of_ne {name other : String} (h : other ≠ name) (m : Entries α) :
    find? other (remove name m) = find? other m := by
  induction m with
  | nil => rfl
  | cons e rest ih =>
    obtain ⟨n, w⟩ := e
    have hcons : remove name ((n, w) :: rest) =
        if n = name then remove name rest else (n, w) :: remove name rest := by
      by_cases hn : n = name <;> simp [remove, hn]
    rw [hcons]
    by_cases hn : n = name
    · subst hn
      rw [if_pos rfl, ih, find?, if_neg h.symm]
    · rw [if_neg hn, find?, find?, ih]

theorem find?_map (f : α → β) (name : String) (m : Entries α) :
    find? name (m.map fun e => (e.1, f e.2)) = (find? name m).map f := by
  induction m with
  | nil => rfl
  | cons e rest ih =>
    obtain ⟨n, v⟩ := e
    by_cases h : n = name <;> simp [find?, h, ih]

theorem mem_of_find? {name : String} {v : α} {m : Entries α} (h : find? name m = some v) :
    (name, v) ∈ m := by
  induction m with
  | nil => exact absurd h (by simp [find?])
  | cons e rest ih =>
    obtain ⟨n, w⟩ := e
    by_cases hn : n = name
    · simp only [find?, hn, if_true, Option.some.injEq] at h
      simp [hn, h]
    · simp only [find?, hn, if_false] at h
      exact List.mem_cons_of_mem _ (ih h)

theorem find?_of_mem {name : String} {v : α} {m : Entries α} (hm : (names m).Nodup)
    (h : (name, v) ∈ m) : find? name m = some v := by
  induction m with
  | nil => exact absurd h List.not_mem_nil
  | cons e rest ih =>
    obtain ⟨n, w⟩ := e
    obtain ⟨hout, hrest⟩ := List.nodup_cons.mp hm
    rcases List.mem_cons.mp h with heq | hmem
    · obtain ⟨rfl, rfl⟩ := Prod.mk.inj heq
      simp [find?]
    · have hne : n ≠ name := by
        rintro rfl
        exact hout (List.mem_map.mpr ⟨_, hmem, rfl⟩)
      simp [find?, hne, ih hrest hmem]

theorem isSome_find?_iff {name : String} {m : Entries α} :
    (find? name m).isSome = true ↔ name ∈ names m := by
  induction m with
  | nil => simp [find?, names]
  | cons e rest ih =>
    obtain ⟨n, v⟩ := e
    by_cases h : n = name
    · simp [find?, names, h]
    · simp [find?, names, h, Ne.symm h, ih]

theorem put_of_not_mem {name : String} {m : Entries α} (h : name ∉ names m) (v : α) :
    put name v m = m ++ [(name, v)] := by
  induction m with
  | nil => rfl
  | cons e rest ih =>
    obtain ⟨n, w⟩ := e
    rw [names, List.map_cons, List.mem_cons, not_or] at h
    rw [put, if_neg (Ne.symm h.1), ih h.2, List.cons_append]

theorem remove_put_self (name : String) (v : α) (m : Entries α) :
    remove name (put name v m) = remove name m := by
  induction m with
  | nil => simp [put, remove]
  | cons e rest ih =>
    obtain ⟨n, w⟩ := e
    by_cases h : n = name
    · simp [put, remove, h]
    · simpa [put, remove, h] using ih

theorem remove_put_of_ne {name other : String} (h : other ≠ name) (v : α) (m : Entries α) :
    remove name (put other v m) = put other v (remove name m) := by
  induction m with
  | nil => simp [put, remove, h]
  | cons e rest ih =>
    obtain ⟨n, w⟩ := e
    by_cases hother : n = other
    · simp [put, remove, hother, h]
    · by_cases hname : n = name
      · simpa [put, remove, hother, hname, h.symm] using ih
      · simpa [put, remove, hother, hname] using ih

theorem mem_put {name : String} {v : α} {m : Entries α} {e : String × α} (h : e ∈ put name v m) :
    e = (name, v) ∨ e ∈ m := by
  induction m with
  | nil => exact .inl (List.mem_singleton.mp h)
  | cons d rest ih =>
    obtain ⟨n, w⟩ := d
    rw [put] at h
    split_ifs at h with hn
    · subst hn
      rcases List.mem_cons.mp h with rfl | hmem
      · exact .inl rfl
      · exact .inr (List.mem_cons_of_mem _ hmem)
    · rcases List.mem_cons.mp h with rfl | hmem
      · exact .inr (by simp)
      · exact (ih hmem).imp_right (List.mem_cons_of_mem _)

theorem of_find?_put {name other : String} {v w : α} {m : Entries α}
    (h : find? other (put name v m) = some w) : w = v ∨ find? other m = some w := by
  by_cases hname : other = name
  · rw [hname, find?_put_self] at h
    exact .inl (Option.some.inj h).symm
  · rw [find?_put_of_ne hname] at h
    exact .inr h

theorem ofList_eq_self {m : List (String × α)} (h : (names m).Nodup) : ofList m = m := by
  have hfold (start : Entries α) (hstart : (names (start ++ m)).Nodup) :
      m.foldl (fun m e => put e.1 e.2 m) start = start ++ m := by
    clear h
    induction m generalizing start with
    | nil => simp
    | cons e rest ih =>
      have hout : e.1 ∉ names start := by
        intro hmem
        rw [names, List.map_append, List.nodup_append] at hstart
        exact hstart.2.2 e.1 hmem e.1 (by simp) rfl
      rw [List.foldl_cons, put_of_not_mem hout, ih (start ++ [(e.1, e.2)]) (by simpa using hstart)]
      simp
  exact hfold [] h

/-- Every value is found under its own name. -/
def KeyedBy (f : α → String) (m : Entries α) : Prop := ∀ name a, find? name m = some a → f a = name

theorem keyedBy_nil (f : α → String) : KeyedBy f [] := by
  intro name a h
  simp [find?] at h

theorem KeyedBy.put {f : α → String} {m : Entries α} (h : KeyedBy f m) (a : α) :
    KeyedBy f (put (f a) a m) := by
  intro name b hb
  by_cases hname : name = f a
  · subst hname
    rw [find?_put_self, Option.some.injEq] at hb
    rw [hb]
  · rw [find?_put_of_ne hname] at hb
    exact h name b hb

theorem nodup_names_put {m : Entries α} (h : (names m).Nodup) (name : String) (v : α) :
    (names (put name v m)).Nodup := by
  induction m with
  | nil => simp [put, names]
  | cons e rest ih =>
    obtain ⟨n, w⟩ := e
    obtain ⟨hout, hrest⟩ := List.nodup_cons.mp h
    rw [put]
    split_ifs with hn
    · exact h
    · refine List.nodup_cons.mpr ⟨fun hmem => ?_, ih hrest⟩
      obtain ⟨d, hd, hname⟩ := List.mem_map.mp hmem
      rcases mem_put hd with rfl | hd
      · exact hn hname.symm
      · exact hout (List.mem_map.mpr ⟨d, hd, hname⟩)

theorem mem_names_put {name other : String} {v : α} {m : Entries α} :
    other ∈ names (put name v m) ↔ other = name ∨ other ∈ names m := by
  rw [← isSome_find?_iff, ← isSome_find?_iff]
  by_cases h : other = name
  · simp [h, find?_put_self]
  · simp [h, find?_put_of_ne h]

section OfList

variable {m : List (String × α)}

theorem ofList_append (m : List (String × α)) (e : String × α) :
    ofList (m ++ [e]) = put e.1 e.2 (ofList m) := List.foldl_append

theorem mem_of_mem_ofList {e : String × α} (h : e ∈ ofList m) : e ∈ m := by
  induction m using List.reverseRecOn with
  | nil => exact h
  | append_singleton m d ih =>
    rw [ofList_append] at h
    rcases mem_put h with rfl | hmem
    · exact List.mem_append_right _ List.mem_cons_self
    · exact List.mem_append_left _ (ih hmem)

theorem mem_names_ofList {name : String} : name ∈ names (ofList m) ↔ name ∈ m.map Prod.fst := by
  induction m using List.reverseRecOn with
  | nil => rfl
  | append_singleton m e ih =>
    rw [ofList_append, mem_names_put, ih, List.map_append, List.mem_append, List.map_singleton,
      List.mem_singleton, or_comm]

theorem nodup_names_ofList : (names (ofList m)).Nodup := by
  induction m using List.reverseRecOn with
  | nil => exact List.nodup_nil
  | append_singleton m e ih =>
    rw [ofList_append]
    exact nodup_names_put ih e.1 e.2

end OfList

theorem nodup_names_sublist {m m' : Entries α} (h : (names m).Nodup) (hsub : m'.Sublist m) :
    (names m').Nodup := h.sublist (hsub.map Prod.fst)

theorem find?_of_sublist {m m' : Entries α} (h : (names m).Nodup) (hsub : m'.Sublist m)
    {name : String} {v : α} (hfind : find? name m' = some v) : find? name m = some v :=
  find?_of_mem h (hsub.subset (mem_of_find? hfind))

theorem nodup_of_names {m : Entries α} (h : (names m).Nodup) : m.Nodup := List.Nodup.of_map _ h

/-- Entries that are found alike are the same up to their order. -/
theorem perm_iff_find? {m m' : Entries α} (hm : (names m).Nodup) (hm' : (names m').Nodup) :
    m.Perm m' ↔ ∀ name, find? name m = find? name m' := by
  rw [List.perm_ext_iff_of_nodup (nodup_of_names hm) (nodup_of_names hm')]
  constructor
  · intro h name
    cases hfind : find? name m with
    | some v => exact (find?_of_mem hm' ((h _).mp (mem_of_find? hfind))).symm
    | none =>
      cases hfind' : find? name m' with
      | none => rfl
      | some v =>
        rw [find?_of_mem hm ((h _).mpr (mem_of_find? hfind'))] at hfind
        exact hfind.symm
  · rintro h ⟨name, v⟩
    constructor
    · intro hmem
      exact mem_of_find? ((h name).symm.trans (find?_of_mem hm hmem))
    · intro hmem
      exact mem_of_find? ((h name).trans (find?_of_mem hm' hmem))

end Entries

end CohortAnalytics
