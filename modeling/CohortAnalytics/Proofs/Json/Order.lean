import CohortAnalytics.Json.Access
import CohortAnalytics.Json.Reader
import CohortAnalytics.Proofs.Json.Canonical
import CohortAnalytics.Proofs.Number.Order

/-!
The order of values. Of two values that can be compared one is below the other or at most as great,
unless one of them holds what is not a number.
-/

namespace CohortAnalytics

namespace Number

theorem decideOrder_strict (m n : Number) : Json.decideOrder true (m.order? n) = m.lt n := by
  rw [lt]
  rcases m.order? n with _ | _ | _ | _ <;> rfl

theorem decideOrder_lax (m n : Number) : Json.decideOrder false (m.order? n) = m.le n := by
  rw [le]
  rcases m.order? n with _ | _ | _ | _ <;> rfl

theorem eqv_comm (m n : Number) : m.eqv n = n.eqv m := by
  rw [Bool.eq_iff_iff, eqv_iff_position, eqv_iff_position]
  tauto

end Number

namespace Json

variable {v w j : Json} {m n : Number} {name : String} {strict : Bool}

@[simp]
theorem isBelow_number (m n : Number) : (Json.number m).isBelow (.number n) = .ok (m.lt n) :=
  congrArg Except.ok (Number.decideOrder_strict m n)

@[simp]
theorem isAtMost_number (m n : Number) : (Json.number m).isAtMost (.number n) = .ok (m.le n) :=
  congrArg Except.ok (Number.decideOrder_lax m n)

/-- Some number in the value is none. -/
inductive HoldsNaN : Json → Prop
  | number {n : Number} (h : n.isProper = false) : HoldsNaN (.number n)
  | array {items : List Json} {v : Json} (hv : v ∈ items) (h : HoldsNaN v) : HoldsNaN (.array items)
  | object {members : List (String × Json)} {m : String × Json} (hm : m ∈ members)
      (h : HoldsNaN m.2) : HoldsNaN (.object members)

section Holds

@[simp]
theorem holdsNaN_null : ¬null.HoldsNaN := nofun

@[simp]
theorem holdsNaN_bool (b : Bool) : ¬(bool b).HoldsNaN := nofun

@[simp]
theorem holdsNaN_text (s : String) : ¬(text s).HoldsNaN := nofun

@[simp]
theorem holdsNaN_number : (number n).HoldsNaN ↔ n.isProper = false := by
  constructor
  · rintro ⟨h⟩
    exact h
  · exact .number

@[simp]
theorem holdsNaN_array {items : List Json} : (array items).HoldsNaN ↔ ∃ v ∈ items, v.HoldsNaN := by
  constructor
  · rintro (_ | ⟨hv, h⟩)
    exact ⟨_, hv, h⟩
  · rintro ⟨v, hv, h⟩
    exact .array hv h

@[simp]
theorem holdsNaN_object {members : List (String × Json)} :
    (object members).HoldsNaN ↔ ∃ m ∈ members, m.2.HoldsNaN := by
  constructor
  · rintro (_ | _ | ⟨hm, h⟩)
    exact ⟨_, hm, h⟩
  · rintro ⟨m, hm, h⟩
    exact .object hm h

end Holds

section Parts

theorem get?_eq_some (h : j.get? name = some v) :
    ∃ members, j = .object members ∧ (name, v) ∈ members := by
  cases j with
  | object members => exact ⟨members, rfl, Entries.mem_of_find? h⟩
  | _ => cases h

theorem WellFormed.get? (hj : j.WellFormed) (h : j.get? name = some v) : v.WellFormed := by
  obtain ⟨members, rfl, hmem⟩ := get?_eq_some h
  cases hj with
  | object _ hmembers => exact hmembers _ hmem

theorem WellFormed.item {items : List Json} (h : (Json.array items).WellFormed) (hv : v ∈ items) :
    v.WellFormed := by
  cases h with
  | array hitems => exact hitems v hv

@[simp]
theorem wellFormed_array {items : List Json} : (array items).WellFormed ↔ ∀ v ∈ items, v.WellFormed :=
  ⟨fun h _ => h.item, .array⟩

@[simp]
theorem wellFormed_object {members : List (String × Json)} :
    (object members).WellFormed ↔ (Entries.names members).Nodup ∧ ∀ m ∈ members, m.2.WellFormed := by
  constructor
  · intro h
    cases h with
    | object hnames h => exact ⟨hnames, h⟩
  · rintro ⟨hnames, h⟩
    exact .object hnames h

theorem HoldsNaN.get? (hv : v.HoldsNaN) (h : j.get? name = some v) : j.HoldsNaN := by
  obtain ⟨members, rfl, hmem⟩ := get?_eq_some h
  exact .object hmem hv

end Parts

section Same

theorem same_of_number? (hv : v.number? = some m) (hw : w.number? = some n) : same v w = m.eqv n := by
  cases v <;> cases w <;> simp_all [same, number?]

theorem same_comm_of_number? (hv : v.number? = some m) (hw : w.number? = some n) :
    same v w = same w v := by
  rw [same_of_number? hv hw, same_of_number? hw hv, Number.eqv_comm]

theorem sameMembers_iff {xs ys : List (String × Json)} : sameMembers xs ys = true ↔
    ∀ m ∈ xs, ∃ w, Entries.find? m.1 ys = some w ∧ same m.2 w = true := by
  induction xs with
  | nil => simp [sameMembers]
  | cons m rest ih =>
    rw [sameMembers, Bool.and_eq_true, ih, List.forall_mem_cons]
    refine and_congr_left' ?_
    cases Entries.find? m.1 ys <;> simp

/-- Objects with as many members have the same names once one's are among the other's. -/
theorem sameMembers_comm {xs ys : List (String × Json)} (hx : (Entries.names xs).Nodup)
    (hy : (Entries.names ys).Nodup) (hlength : xs.length = ys.length)
    (ih : ∀ m ∈ xs, ∀ w : Json, w ∈ ys.map Prod.snd → same m.2 w = true → same w m.2 = true)
    (h : sameMembers xs ys = true) : sameMembers ys xs = true := by
  rw [sameMembers_iff] at h ⊢
  have hsubset : Entries.names xs ⊆ Entries.names ys := by
    intro name hname
    obtain ⟨m, hm, rfl⟩ := List.mem_map.mp hname
    obtain ⟨w, hw, -⟩ := h m hm
    exact List.mem_map.mpr ⟨_, Entries.mem_of_find? hw, rfl⟩
  have hperm : (Entries.names xs).Perm (Entries.names ys) :=
    (List.subperm_of_subset hx hsubset).perm_of_length_le (by simp [Entries.names, hlength])
  rintro ⟨name, w⟩ hw
  obtain ⟨⟨_, v⟩, hv, rfl⟩ := List.mem_map.mp (hperm.mem_iff.mpr (List.mem_map_of_mem hw))
  obtain ⟨u, hu, hsame⟩ := h _ hv
  have hfound := Entries.find?_of_mem hy hw
  obtain rfl : u = w := Option.some.inj (hu.symm.trans hfound)
  exact ⟨v, Entries.find?_of_mem hx hv, ih _ hv u (List.mem_map_of_mem hw) hsame⟩

theorem sameItems_comm {xs ys : List Json} (ih : ∀ v ∈ xs, ∀ w ∈ ys, same v w = true → same w v = true)
    (h : sameItems xs ys = true) : sameItems ys xs = true := by
  induction xs generalizing ys with
  | nil =>
    cases ys with
    | nil => rfl
    | cons w ws => cases h
  | cons v vs hvs =>
    cases ys with
    | nil => cases h
    | cons w ws =>
      rw [sameItems, Bool.and_eq_true] at h ⊢
      exact ⟨ih v List.mem_cons_self w List.mem_cons_self h.1,
        hvs (fun v hv w hw => ih v (List.mem_cons_of_mem _ hv) w (List.mem_cons_of_mem _ hw)) h.2⟩

theorem same_symm (hv : v.WellFormed) (hw : w.WellFormed) (h : same v w = true) : same w v = true := by
  induction v using induct generalizing w with
  | null => cases w <;> simp_all [same, number?]
  | bool b =>
    cases w with
    | bool c => exact (same_comm_of_number? rfl rfl).trans h
    | number n => exact (same_comm_of_number? rfl rfl).trans h
    | _ => simp [same, number?] at h
  | number n =>
    cases w with
    | bool c => exact (same_comm_of_number? rfl rfl).trans h
    | number k => exact (same_comm_of_number? rfl rfl).trans h
    | _ => simp [same, number?] at h
  | text s => cases w <;> simp_all [same, number?]
  | array items ih =>
    cases w with
    | array others =>
      rw [same] at h ⊢
      exact sameItems_comm (fun v hv' w hw' => ih v hv' (hv.item hv') (hw.item hw')) h
    | _ => simp [same, number?] at h
  | object members ih =>
    cases w with
    | object others =>
      rw [same, Bool.and_eq_true, beq_iff_eq] at h ⊢
      obtain ⟨hlength, h⟩ := h
      cases hv with
      | object hnames hmembers =>
      cases hw with
      | object hnames' hothers =>
      refine ⟨hlength.symm, sameMembers_comm hnames hnames' hlength (fun m hm w hw' => ?_) h⟩
      obtain ⟨o, ho, rfl⟩ := List.mem_map.mp hw'
      exact ih m hm (hmembers m hm) (hothers o ho)
    | _ => simp [same, number?] at h

theorem same_comm (hv : v.WellFormed) (hw : w.WellFormed) : same v w = same w v := by
  rw [Bool.eq_iff_iff]
  exact ⟨same_symm hv hw, same_symm hw hv⟩

end Same

section Under

theorem under_of_number? (hv : v.number? = some m) (hw : w.number? = some n) :
    under strict v w = .ok (decideOrder strict (m.order? n)) := by
  cases v <;> cases w <;> simp_all [under, number?]

/-- Only numbers, texts and lists can be compared, each with their like. -/
theorem under_ok {b : Bool} (h : under strict v w = .ok b) :
    (∃ m n, v.number? = some m ∧ w.number? = some n) ∨ (∃ s t, v = .text s ∧ w = .text t) ∨
      ∃ xs ys, v = .array xs ∧ w = .array ys := by
  cases v <;> cases w <;> simp_all [under, number?]

theorem holdsNaN_of_number? (hv : v.number? = some m) (h : m.isProper = false) : v.HoldsNaN := by
  cases v with
  | number n =>
    obtain rfl := Option.some.inj hv
    exact .number h
  | bool b =>
    obtain rfl := Option.some.inj hv
    cases h
  | _ => cases hv

theorem atMost_of_not_below_number (m n : Number) (h : n.lt m = false) :
    m.le n = true ∨ m.isProper = false ∨ n.isProper = false := by
  by_cases hm : m.isProper = true
  · by_cases hn : n.isProper = true
    · left
      by_contra hle
      rw [Bool.not_eq_true, Number.not_le_iff_lt hm hn, h] at hle
      cases hle
    · exact .inr (.inr (Bool.eq_false_of_not_eq_true hn))
  · exact .inr (.inl (Bool.eq_false_of_not_eq_true hm))

theorem atMost_of_not_below_text (s t : String) (h : decideOrder true (some (textOrder t s)) = false) :
    decideOrder false (some (textOrder s t)) = true := by
  rw [textOrder] at h ⊢
  rcases lt_trichotomy s t with hlt | rfl | hlt
  · simp [hlt, decideOrder]
  · simp [decideOrder]
  · simp [hlt, decideOrder] at h

/-- The first items that differ decide, and they are the same ones in both directions. -/
theorem atMost_of_not_below_items {xs ys : List Json}
    (ih : ∀ x ∈ xs, ∀ y ∈ ys, same x y = same y x ∧ (under true y x = .ok false →
      under false x y = .ok true ∨ x.HoldsNaN ∨ y.HoldsNaN))
    (h : itemsBelow true ys xs = .ok false) :
    itemsBelow false xs ys = .ok true ∨ (∃ x ∈ xs, x.HoldsNaN) ∨ ∃ y ∈ ys, y.HoldsNaN := by
  induction ys generalizing xs with
  | nil =>
    cases xs with
    | nil => exact .inl rfl
    | cons x xs => cases h
  | cons y ys ihs =>
    cases xs with
    | nil => exact .inl rfl
    | cons x xs =>
      obtain ⟨hcomm, hfirst⟩ := ih x List.mem_cons_self y List.mem_cons_self
      rw [itemsBelow] at h ⊢
      rw [hcomm]
      by_cases hsame : same y x = true
      · rw [if_pos hsame] at h ⊢
        have hrest := ihs (fun u hu t ht =>
          ih u (List.mem_cons_of_mem _ hu) t (List.mem_cons_of_mem _ ht)) h
        simp only [List.mem_cons, exists_eq_or_imp]
        exact hrest.imp_right (Or.imp .inr .inr)
      · rw [if_neg hsame] at h ⊢
        simp only [List.mem_cons, exists_eq_or_imp]
        exact (hfirst h).imp_right (Or.imp .inl .inl)

/-- What is not below is at most as great. -/
theorem atMost_of_not_below (hv : v.WellFormed) (hw : w.WellFormed) (h : w.isBelow v = .ok false) :
    v.isAtMost w = .ok true ∨ v.HoldsNaN ∨ w.HoldsNaN := by
  rw [isBelow] at h
  rw [isAtMost]
  induction w using induct generalizing v with
  | array ys ih =>
    rcases under_ok h with ⟨m, n, hw', -⟩ | ⟨s, t, hw', -⟩ | ⟨_, xs, -, rfl⟩
    · cases hw'
    · cases hw'
    · rw [under] at h ⊢
      rcases atMost_of_not_below_items (fun x hx y hy => ⟨same_comm (hv.item hx) (hw.item hy),
        ih y hy (hv.item hx) (hw.item hy)⟩) h with hle | ⟨x, hx, hnan⟩ | ⟨y, hy, hnan⟩
      · exact .inl hle
      · exact .inr (.inl (.array hx hnan))
      · exact .inr (.inr (.array hy hnan))
  | _ =>
    rcases under_ok h with ⟨n, m, hn, hm⟩ | ⟨t, s, ht, rfl⟩ | ⟨ys, xs, hys, -⟩
    · rw [under_of_number? hn hm, Except.ok.injEq, Number.decideOrder_strict] at h
      rw [under_of_number? hm hn, Except.ok.injEq, Number.decideOrder_lax]
      exact (atMost_of_not_below_number m n h).imp_right
        (Or.imp (holdsNaN_of_number? hm) (holdsNaN_of_number? hn))
    · cases ht
      all_goals
        rw [under, Except.ok.injEq] at h ⊢
        exact .inl (atMost_of_not_below_text s _ h)
    · cases hys

end Under

end Json

end CohortAnalytics
