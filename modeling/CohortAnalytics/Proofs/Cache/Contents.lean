import CohortAnalytics.Cache.Flight
import CohortAnalytics.Proofs.Entries

/-!
A property of the values in a cache that looking, storing, evicting and cleaning up keep.
-/

namespace CohortAnalytics

namespace CacheTable

variable {τ V : Type} {p : String → V → Prop} {t : CacheTable τ V}

/-- Every value is kept under a key it belongs to. -/
def Holds (p : String → V → Prop) (t : CacheTable τ V) : Prop := ∀ e ∈ t, p e.1 e.2.value

theorem Holds.sublist {t' : CacheTable τ V} (h : t.Holds p) (hsub : t'.Sublist t) : Holds p t' :=
  fun e he => h e (hsub.subset he)

theorem Holds.filter (h : t.Holds p) (q : String × CacheEntry τ V → Bool) :
    Holds p (t.filter q) := h.sublist List.filter_sublist

theorem Holds.put (h : t.Holds p) {key : String} {e : CacheEntry τ V} (he : p key e.value) :
    Holds p (t.put key e) := by
  intro d hd
  rcases Entries.mem_put hd with rfl | hd
  · exact he
  · exact h d hd

variable [Clock τ]

theorem store_sublist (capacity : ℕ) (key : String) (e : CacheEntry τ V) (t : CacheTable τ V) :
    (t.store capacity key e).1.Sublist (t.put key e) := by
  unfold CacheTable.store
  dsimp only
  split_ifs
  · exact List.filter_sublist
  · exact .refl _

/-- A look finds an entry that is not expired, drops one that is, or finds none. -/
theorem look_cases (now : τ) (key : String) (t : CacheTable τ V) :
    (∃ e, t.find? key = some e ∧ e.isExpired now = false ∧ t.look now key = (some e, t)) ∨
    (∃ e, t.find? key = some e ∧ e.isExpired now = true ∧
      t.look now key = (none, Entries.remove key t)) ∨
    t.find? key = none ∧ t.look now key = (none, t) := by
  unfold CacheTable.look
  cases t.find? key with
  | none => exact .inr (.inr ⟨rfl, rfl⟩)
  | some e =>
    cases hexpired : e.isExpired now with
    | false => exact .inl ⟨e, rfl, hexpired, by simp [hexpired]⟩
    | true => exact .inr (.inl ⟨e, rfl, hexpired, by simp [hexpired]⟩)

theorem look_sublist (now : τ) (key : String) (t : CacheTable τ V) : (t.look now key).2.Sublist t := by
  rcases t.look_cases now key with ⟨e, -, -, hlook⟩ | ⟨e, -, -, hlook⟩ | ⟨-, hlook⟩
  · rw [hlook]
  · rw [hlook]
    exact List.filter_sublist
  · rw [hlook]

theorem of_look {now : τ} {key : String} {e : CacheEntry τ V} (h : (t.look now key).1 = some e) :
    t.find? key = some e ∧ e.isExpired now = false := by
  rcases t.look_cases now key with ⟨d, hfind, hexpired, hlook⟩ | ⟨d, -, -, hlook⟩ | ⟨-, hlook⟩
  all_goals rw [hlook] at h
  · obtain rfl := Option.some.inj h
    exact ⟨hfind, hexpired⟩
  · cases h
  · cases h

theorem Holds.store (h : t.Holds p) (capacity : ℕ) {key : String} {e : CacheEntry τ V}
    (he : p key e.value) : Holds p (t.store capacity key e).1 :=
  (h.put he).sublist (store_sublist capacity key e t)

theorem Holds.look (h : t.Holds p) (now : τ) (key : String) : Holds p (t.look now key).2 :=
  h.sublist (look_sublist now key t)

theorem Holds.found (h : t.Holds p) {now : τ} {key : String} {e : CacheEntry τ V}
    {entries : CacheTable τ V} (hlook : t.look now key = (some e, entries)) : p key e.value :=
  h _ (Entries.mem_of_find? (of_look (congrArg Prod.fst hlook)).1)

/-- After a look in vain nothing is under the key any more. -/
theorem find?_look_none {now : τ} {key : String} (h : (t.look now key).1 = none) :
    (t.look now key).2.find? key = none := by
  rcases t.look_cases now key with ⟨e, -, -, hlook⟩ | ⟨e, -, -, hlook⟩ | ⟨hfind, hlook⟩
  · rw [hlook] at h
    cases h
  · rw [hlook]
    exact Entries.find?_remove_self key t
  · rw [hlook]
    exact hfind

theorem look_of_find?_none {key : String} (h : t.find? key = none) (now : τ) :
    t.look now key = (none, t) := by
  rw [CacheTable.look, h]

/-- A look takes nothing away that has not expired. -/
theorem sweep_look (ht : (Entries.names t).Nodup) (now : τ) (key : String) :
    (t.look now key).2.sweep now = t.sweep now := by
  rcases t.look_cases now key with ⟨e, -, -, hlook⟩ | ⟨e, hfind, hexpired, hlook⟩ | ⟨-, hlook⟩
  all_goals rw [hlook]
  rw [sweep, sweep, Entries.remove, List.filter_filter]
  apply List.filter_congr
  rintro ⟨name, d⟩ hd
  by_cases hname : name = key
  · subst hname
    obtain rfl : e = d := Option.some.inj (hfind.symm.trans (Entries.find?_of_mem ht hd))
    simp [hexpired]
  · simp [hname]

end CacheTable

theorem Cache.get_eq_none_iff {τ V : Type} [Clock τ] {c : Cache τ V} {key : String} :
    (c.get key).1 = none ↔ (c.entries.look c.now key).1 = none := Option.map_eq_none_iff

end CohortAnalytics
