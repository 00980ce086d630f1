import CohortAnalytics.Proofs.Json.Readability
import CohortAnalytics.Query.Statement
import Mathlib

/-!
The text of a statement, which does not depend on its parameters, and texts laid out in pieces:
fragments with their parameters, and text without placeholders between them. In a layout of balanced
pieces each placeholder stands in the fragment that brought its parameter.
-/

namespace CohortAnalytics

def Fragment.erased (f : Fragment) : Fragment := ⟨f.text, []⟩

namespace Statement

def erased (s : Statement) : Statement :=
  { s with
    groups := s.groups.map Fragment.erased
    measures := s.measures.map fun (name, f) => (name, f.erased)
    filters := s.filters.map Fragment.erased }

theorem text_erased (s : Statement) : s.erased.text = s.text := by
  have hnames : s.erased.groupNames = s.groupNames := by simp [erased, groupNames]
  have hitems : s.erased.selectItems = s.selectItems.map fun (name, f) => (name, f.erased) := by
    rw [selectItems, hnames, selectItems, List.map_append, erased, List.zip_map_right]
    rfl
  have hselect : s.erased.selectText = s.selectText := by
    rw [selectText, hitems, List.map_map]
    rfl
  have hwhere : s.erased.whereText = s.whereText := by
    simp only [whereText, erased, List.isEmpty_map, List.map_map]
    rfl
  have hgroup : s.erased.groupText = s.groupText := by simp [groupText, erased]
  have horder : s.erased.orderText = s.orderText := by
    rw [orderText, hnames, orderText]
    rfl
  rw [text, hselect, hwhere, hgroup, horder]
  rfl

theorem text_congr {s t : Statement} (h : s.erased = t.erased) : s.text = t.text := by
  rw [← text_erased s, h, text_erased]

end Statement

/-- Text without placeholders. -/
def IsBare (s : String) : Prop := '?' ∉ s.toList

instance (s : String) : Decidable (IsBare s) := inferInstanceAs (Decidable ('?' ∉ s.toList))

theorem isBare_append {s t : String} : IsBare (s ++ t) ↔ IsBare s ∧ IsBare t := by
  simp [IsBare]

theorem isBare_of_isDigit {s : String} (h : ∀ c ∈ s.toList, c.isDigit ∨ c = '-') : IsBare s := by
  intro hmem
  have := h '?' hmem
  exact absurd this (by decide)

theorem isBare_nat (n : ℕ) : IsBare (toString n) := by
  apply isBare_of_isDigit
  intro c hc
  rw [Nat.toString_eq_ofList_toDigits, String.toList_ofList] at hc
  exact .inl (Nat.isDigit_of_mem_toDigits (by omega) (by omega) hc)

theorem isBare_int (n : ℤ) : IsBare (toString n) := isBare_of_isDigit (Json.writeInt_spec n).1

theorem count_intercalate {separator : String} (h : IsBare separator) (texts : List String) :
    (separator.intercalate texts).toList.count '?' =
      (texts.map fun s => s.toList.count '?').sum := by
  have hseparator : separator.toList.count '?' = 0 := List.count_eq_zero.mpr h
  induction texts with
  | nil => rfl
  | cons s texts ih =>
    cases texts with
    | nil => simp
    | cons t texts =>
      rw [String.intercalate_cons_cons, String.toList_append, String.toList_append, List.count_append,
        List.count_append, ih, hseparator, List.map_cons (a := s), List.sum_cons, Nat.add_zero]

theorem isBare_intercalate {separator : String} {texts : List String} (hseparator : IsBare separator)
    (h : ∀ s ∈ texts, IsBare s) : IsBare (separator.intercalate texts) := by
  rw [IsBare, ← List.count_eq_zero, count_intercalate hseparator, List.sum_eq_zero]
  intro n hn
  obtain ⟨s, hs, rfl⟩ := List.mem_map.mp hn
  exact List.count_eq_zero.mpr (h s hs)

/-- Where the placeholders of a text stand. -/
def placesIn (s : String) : List Nat := s.toList.findIdxs (· == '?')

theorem length_placesIn (s : String) : (placesIn s).length = s.toList.count '?' :=
  List.length_findIdxs

theorem placesIn_append (s t : String) :
    placesIn (s ++ t) = placesIn s ++ (placesIn t).map (· + s.length) := by
  have hshift : t.toList.findIdxs (· == '?') s.length = (placesIn t).map (· + s.length) :=
    List.findIdxs_start
  rw [placesIn, String.toList_append, List.findIdxs_append, Nat.zero_add, String.length_toList,
    hshift]
  rfl

theorem placesIn_eq_nil {s : String} (h : IsBare s) : placesIn s = [] := by
  rw [← List.length_eq_zero_iff, length_placesIn, List.count_eq_zero]
  exact h

theorem Fragment.balanced_bare {text : String} : Fragment.Balanced ⟨text, []⟩ ↔ IsBare text :=
  List.count_eq_zero

/-- Text of the statement's own, or a fragment with its parameters. -/
inductive Piece
  | plain (text : String)
  | part (f : Fragment)

namespace Piece

def text : Piece → String
  | .plain text => text
  | .part f => f.text

def fragment? : Piece → Option Fragment
  | .plain _ => none
  | .part f => some f

def params : Piece → List Param
  | .plain _ => []
  | .part f => f.params

def Balanced (p : Piece) : Prop := (placesIn p.text).length = p.params.length

theorem balanced_plain {text : String} (h : IsBare text) : (plain text).Balanced := by
  rw [Balanced, Piece.text, placesIn_eq_nil h]
  rfl

theorem balanced_part {f : Fragment} (h : f.Balanced) : (part f).Balanced := by
  rw [Balanced, Piece.text, length_placesIn]
  exact h

end Piece

abbrev Layout := List Piece

namespace Layout

def text (l : Layout) : String := String.join (l.map Piece.text)

def fragments (l : Layout) : List Fragment := l.filterMap Piece.fragment?

def params (l : Layout) : List Param := l.flatMap Piece.params

@[simp]
theorem fragments_nil : fragments [] = [] := rfl

@[simp]
theorem fragments_plain (text : String) (l : Layout) : fragments (.plain text :: l) = l.fragments :=
  rfl

@[simp]
theorem fragments_append (l m : Layout) : fragments (l ++ m) = l.fragments ++ m.fragments :=
  List.filterMap_append

theorem params_eq (l : Layout) : l.params = l.fragments.flatMap Fragment.params := by
  induction l with
  | nil => rfl
  | cons p l ih =>
    rw [params, List.flatMap_cons, ← params, ih]
    cases p <;> rfl

@[simp]
theorem text_nil : text [] = "" := String.join_nil

@[simp]
theorem text_cons (p : Piece) (l : Layout) : text (p :: l) = p.text ++ text l := String.join_cons

@[simp]
theorem text_append (l m : Layout) : text (l ++ m) = text l ++ text m := by
  rw [text, List.map_append, String.join_append]
  rfl

theorem length_placesIn_text {l : Layout} (h : ∀ p ∈ l, p.Balanced) :
    (placesIn l.text).length = l.params.length := by
  induction l with
  | nil => rfl
  | cons p l ih =>
    have hp : p.Balanced := h p (by simp)
    have hl := ih fun p hp => h p (by simp [hp])
    rw [text_cons, placesIn_append, List.length_append, List.length_map, hp, hl, params, params,
      List.flatMap_cons, List.length_append]

/-- The `k`th placeholder stands where the `j`th of some piece stands within that piece, and the
`k`th parameter is the `j`th of the same piece. -/
def AlignedAt (l : Layout) (k : Nat) : Prop :=
  ∃ before f after j, l = before ++ Piece.part f :: after ∧ j < f.params.length ∧
    k = (params before).length + j ∧ l.params[k]? = f.params[j]? ∧
    (placesIn l.text)[k]? = (placesIn f.text)[j]?.map (· + (text before).length)

theorem AlignedAt.cons {l : Layout} {k : Nat} (p : Piece) (hp : p.Balanced) (h : l.AlignedAt k) :
    AlignedAt (p :: l) (p.params.length + k) := by
  obtain ⟨before, f, after, j, rfl, hj, rfl, hparam, hplace⟩ := h
  refine ⟨p :: before, f, after, j, rfl, hj, ?_, ?_, ?_⟩
  · rw [params, params, List.flatMap_cons, List.length_append, Nat.add_assoc]
  · rw [params, List.flatMap_cons, ← params, List.getElem?_append_right (Nat.le_add_right _ _),
      Nat.add_sub_cancel_left, hparam]
  · rw [text_cons, text_cons, placesIn_append, ← hp,
      List.getElem?_append_right (Nat.le_add_right _ _), Nat.add_sub_cancel_left,
      List.getElem?_map, hplace, Option.map_map, String.length_append]
    congr 1
    funext place
    simp only [Function.comp_apply]
    omega

theorem alignedAt_of_balanced {l : Layout} (h : ∀ p ∈ l, p.Balanced) {k : Nat}
    (hk : k < l.params.length) : l.AlignedAt k := by
  induction l generalizing k with
  | nil => exact absurd hk (Nat.not_lt_zero k)
  | cons p l ih =>
    have hp : p.Balanced := h p (by simp)
    rw [params, List.flatMap_cons, List.length_append, ← params] at hk
    by_cases hfirst : k < p.params.length
    · cases p with
      | plain text => exact absurd hfirst (Nat.not_lt_zero k)
      | part f =>
        refine ⟨[], f, l, k, rfl, hfirst, (Nat.zero_add k).symm, ?_, ?_⟩
        · rw [params, List.flatMap_cons, List.getElem?_append_left hfirst]
          rfl
        · rw [text_cons, placesIn_append, List.getElem?_append_left (hp ▸ hfirst)]
          simp [Piece.text]
    · obtain ⟨k, rfl⟩ := Nat.exists_eq_add_of_le (Nat.le_of_not_lt hfirst)
      exact (ih (fun p hp => h p (by simp [hp])) (by omega)).cons p hp

theorem text_intercalate (separator : String) (ls : List Layout) :
    text ([Piece.plain separator].intercalate ls) = separator.intercalate (ls.map text) := by
  induction ls with
  | nil => rfl
  | cons l ls ih =>
    cases ls with
    | nil => simp
    | cons m ls =>
      rw [List.intercalate_cons_cons, text_append, text_append, ih]
      simp [String.intercalate_cons_cons, Piece.text]

theorem fragments_intercalate (separator : String) (ls : List Layout) :
    fragments ([Piece.plain separator].intercalate ls) = ls.flatMap fragments := by
  induction ls with
  | nil => rfl
  | cons l ls ih =>
    cases ls with
    | nil => simp
    | cons m ls =>
      rw [List.intercalate_cons_cons, fragments_append, fragments_append, ih]
      simp

theorem mem_intercalate {separator : String} {ls : List Layout} {p : Piece}
    (h : p ∈ [Piece.plain separator].intercalate ls) :
    p = .plain separator ∨ ∃ l ∈ ls, p ∈ l := by
  induction ls with
  | nil => exact absurd h List.not_mem_nil
  | cons l ls ih =>
    cases ls with
    | nil => exact .inr ⟨l, by simp, by simpa using h⟩
    | cons m ls =>
      rw [List.intercalate_cons_cons, List.mem_append, List.mem_append, List.mem_singleton] at h
      rcases h with (h | h) | h
      · exact .inr ⟨l, by simp, h⟩
      · exact .inl h
      · rcases ih h with h | ⟨l, hl, h⟩
        · exact .inl h
        · exact .inr ⟨l, by simp [hl], h⟩

end Layout

end CohortAnalytics
