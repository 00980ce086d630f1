import CohortAnalytics.Cohort.Like
import Mathlib

/-!
The pattern made of an escaped text between two `%` is the pattern of the texts that hold it,
whatever wildcards and backslashes stand in it.
-/

namespace CohortAnalytics.Like

def replaced (old : Char) (new : List Char) (cs : List Char) : List Char :=
  cs.flatMap fun c => if c = old then new else [c]

/-- The escaping in three rounds. Backslashes go first, or the later ones would be doubled. -/
theorem escape_eq_replaced (s : String) :
    (escape s).toList =
      replaced '_' ['\\', '_'] (replaced '%' ['\\', '%'] (replaced '\\' ['\\', '\\'] s.toList)) := by
  rw [escape, String.toList_ofList]
  induction s.toList with
  | nil => rfl
  | cons c rest ih =>
    simp only [replaced, List.flatMap_cons, List.flatMap_append] at ih ⊢
    rw [ih]
    congr 1
    by_cases hslash : c = '\\'
    · subst hslash
      decide
    by_cases hpercent : c = '%'
    · subst hpercent
      decide
    by_cases hscore : c = '_'
    · subst hscore
      decide
    simp [escapeChar, hslash, hpercent, hscore]

theorem pieces_escapeChar (c : Char) (rest : List Char) :
    pieces (escapeChar c ++ rest) = .char c :: pieces rest := by
  by_cases h : c = '\\' ∨ c = '%' ∨ c = '_'
  · rw [escapeChar, if_pos h, List.cons_append, List.cons_append, List.nil_append, pieces]
  · push Not at h
    obtain ⟨hslash, hpercent, hscore⟩ := h
    rw [escapeChar, if_neg (by simp [*]), List.singleton_append]
    conv_lhs => unfold pieces
    split <;> simp_all

theorem pieces_escape (cs rest : List Char) :
    pieces (cs.flatMap escapeChar ++ rest) = cs.map .char ++ pieces rest := by
  induction cs with
  | nil => rfl
  | cons c cs ih =>
    rw [List.flatMap_cons, List.append_assoc, pieces_escapeChar, ih, List.map_cons,
      List.cons_append]

theorem pieces_containing (s : String) :
    pieces (containing s).toList = .anyText :: (s.toList.map .char ++ [.anyText]) := by
  simp only [containing, escape, String.toList_append, String.toList_ofList]
  change pieces ('%' :: (s.toList.flatMap escapeChar ++ ['%'])) = _
  rw [pieces, pieces_escape]
  rfl

theorem someTail_iff {p : List Char → Bool} {text : List Char} :
    someTail p text = true ↔ ∃ tail, tail <:+ text ∧ p tail = true := by
  induction text with
  | nil => simp [someTail]
  | cons c rest ih =>
    rw [someTail, Bool.or_eq_true, ih]
    simp only [List.suffix_cons_iff]
    constructor
    · rintro (h | ⟨tail, htail, h⟩)
      · exact ⟨_, .inl rfl, h⟩
      · exact ⟨tail, .inr htail, h⟩
    · rintro ⟨tail, rfl | htail, h⟩
      · exact .inl h
      · exact .inr ⟨tail, htail, h⟩

theorem matchPieces_chars {cs text : List Char} {ps : List Piece} :
    matchPieces (cs.map .char ++ ps) text = true ↔
      ∃ rest, text = cs ++ rest ∧ matchPieces ps rest = true := by
  induction cs generalizing text with
  | nil => simp
  | cons c cs ih =>
    rw [List.map_cons, List.cons_append]
    cases text with
    | nil => simp [matchPieces]
    | cons d text =>
      rw [matchPieces, Bool.and_eq_true, beq_iff_eq, ih]
      constructor
      · rintro ⟨rfl, rest, rfl, h⟩
        exact ⟨rest, rfl, h⟩
      · rintro ⟨rest, hrest, h⟩
        obtain ⟨rfl, rfl⟩ := List.cons.inj hrest
        exact ⟨rfl, rest, rfl, h⟩

theorem matchPieces_anyText (text : List Char) : matchPieces [.anyText] text = true := by
  rw [matchPieces, someTail_iff]
  exact ⟨[], List.nil_suffix, rfl⟩

theorem matchesText_containing (s text : String) :
    matchesText (containing s) text = true ↔ s.toList <:+: text.toList := by
  rw [matchesText, pieces_containing, matchPieces, someTail_iff]
  simp only [matchPieces_chars, matchPieces_anyText, and_true]
  constructor
  · rintro ⟨tail, ⟨front, hfront⟩, back, rfl⟩
    exact ⟨front, back, by rw [← hfront, List.append_assoc]⟩
  · rintro ⟨front, back, h⟩
    exact ⟨s.toList ++ back, ⟨front, by rw [← h, List.append_assoc]⟩, back, rfl⟩

end CohortAnalytics.Like
