import CohortAnalytics.Cohort.Inline
import Mathlib

/-!
Texts that are read as given tokens wherever they stand, as long as a blank or the end follows.
-/

namespace CohortAnalytics.Inline

/-- A place where every token ends. -/
def IsBoundary (rest : List Char) : Prop := ∀ c ∈ rest.head?, c = ' '

/-- The text is read as these tokens, one turn for each. -/
structure ReadAs (cs : List Char) (ts : List Token) : Prop where
  length_le : ts.length ≤ cs.length
  read : ∀ turns rest, IsBoundary rest →
    tokensIn (turns + ts.length) (cs ++ rest) = (tokensIn turns rest).map (ts ++ ·)

theorem isBoundary_nil : IsBoundary [] := by simp [IsBoundary]

theorem isBoundary_blank (rest : List Char) : IsBoundary (' ' :: rest) := by simp [IsBoundary]

theorem tokensIn_nil (turns : Nat) : tokensIn turns [] = some [] := by
  cases turns <;> rfl

theorem tokensIn_blank (turns : Nat) (cs : List Char) :
    tokensIn (turns + 1) (' ' :: cs) = tokensIn (turns + 1) cs := by
  rw [tokensIn, tokensIn, List.dropWhile_cons_of_pos (by rfl)]

theorem tokensIn_token {c : Char} {cs rest : List Char} {t : Token} (turns : Nat) (hc : c ≠ ' ')
    (h : token? (c :: cs) = some (t, rest)) :
    tokensIn (turns + 1) (c :: cs) = (tokensIn turns rest).map (t :: ·) := by
  rw [tokensIn, List.dropWhile_cons_of_neg (by simpa using hc)]
  simp only [h, Option.bind_eq_bind, Option.bind_some]
  cases tokensIn turns rest <;> rfl

theorem ReadAs.of_token {c : Char} {cs : List Char} {t : Token} (hc : c ≠ ' ')
    (h : ∀ rest, IsBoundary rest → token? (c :: (cs ++ rest)) = some (t, rest)) :
    ReadAs (c :: cs) [t] := by
  constructor
  · simp
  · intro turns rest hrest
    exact tokensIn_token turns hc (h rest hrest)

theorem ReadAs.blank {cs : List Char} {t : Token} {ts : List Token} (h : ReadAs cs (t :: ts)) :
    ReadAs (' ' :: cs) (t :: ts) := by
  constructor
  · have := h.length_le
    simp only [List.length_cons] at this ⊢
    omega
  · intro turns rest hrest
    rw [List.cons_append, List.length_cons, ← Nat.add_assoc, tokensIn_blank]
    exact h.read turns rest hrest

theorem ReadAs.append {as bs : List Char} {ts us : List Token} (ha : ReadAs as ts)
    (hb : ReadAs bs us) (hboundary : ∀ rest, IsBoundary rest → IsBoundary (bs ++ rest)) :
    ReadAs (as ++ bs) (ts ++ us) := by
  constructor
  · have := ha.length_le
    have := hb.length_le
    simp only [List.length_append]
    omega
  · intro turns rest hrest
    rw [List.length_append, List.append_assoc, Nat.add_comm ts.length, ← Nat.add_assoc,
      ha.read _ _ (hboundary rest hrest), hb.read _ _ hrest]
    cases tokensIn turns rest <;> simp

theorem ReadAs.spaced {as bs : List Char} {t : Token} {ts us : List Token} (ha : ReadAs as ts)
    (hb : ReadAs bs (t :: us)) : ReadAs (as ++ ' ' :: bs) (ts ++ t :: us) :=
  ha.append hb.blank fun _ _ => isBoundary_blank _

theorem ReadAs.tokens?_eq {s : String} {ts : List Token} (h : ReadAs s.toList ts) :
    tokens? s = some ts := by
  have hlength := h.length_le
  -- Turns that are left at the end of the text change nothing.
  have hread := h.read (s.toList.length.succ - ts.length) [] isBoundary_nil
  rw [List.append_nil, tokensIn_nil, Nat.sub_add_cancel (by omega)] at hread
  rw [tokens?, hread]
  simp

theorem takeWhile_boundary {p : Char → Bool} {cs rest : List Char} (hp : p ' ' = false)
    (hcs : ∀ c ∈ cs, p c = true) (hrest : IsBoundary rest) :
    (cs ++ rest).takeWhile p = cs ∧ (cs ++ rest).dropWhile p = rest := by
  rw [List.takeWhile_append_of_pos hcs, List.dropWhile_append_of_pos hcs]
  cases rest with
  | nil => simp
  | cons c rest =>
    obtain rfl : c = ' ' := hrest c rfl
    simp [hp]

theorem readAs_word {w : String} (hne : w.toList ≠ []) (hall : w.toList.all isWordChar = true) :
    ReadAs w.toList [.word w] := by
  have hw := List.all_eq_true.mp hall
  obtain ⟨c, cs, hcs⟩ := List.exists_cons_of_ne_nil hne
  rw [hcs] at hw ⊢
  have hc : isWordChar c = true := hw c (by simp)
  have hnotBlank : c ≠ ' ' := by
    rintro rfl
    exact absurd hc (by decide)
  have hnotQuote : c ≠ '\x27' := by
    rintro rfl
    exact absurd hc (by decide)
  apply ReadAs.of_token hnotBlank
  intro rest hrest
  obtain ⟨htake, hdrop⟩ := takeWhile_boundary (by decide) hw hrest
  rw [List.cons_append] at htake hdrop
  rw [List.dropWhile_cons_of_pos hc] at hdrop
  rw [token?, if_neg hnotQuote, if_pos hc, htake, hdrop, ← hcs, String.ofList_toList]

theorem readAs_symbol {c : Char} (hc : c ≠ ' ') (hquote : c ≠ '\x27') (hword : isWordChar c = false)
    (hnumber : isNumberChar c = false) : ReadAs [c] [.symbol c] := by
  apply ReadAs.of_token hc
  intro rest _
  rw [token?, if_neg hquote, if_neg (by simp [hword]), if_neg (by simp [hnumber])]
  rfl

theorem untilQuote_doubled (cs : List Char) {rest : List Char} (hrest : IsBoundary rest) :
    untilQuote (cs.flatMap (fun c => if c = '\x27' then ['\x27', '\x27'] else [c]) ++ '\x27' :: rest) =
      some (cs, rest) := by
  induction cs with
  | nil =>
    cases rest with
    | nil => rfl
    | cons c rest =>
      obtain rfl : c = ' ' := hrest c rfl
      rfl
  | cons c cs ih =>
    rw [List.flatMap_cons, List.append_assoc]
    by_cases hc : c = '\x27'
    · rw [if_pos hc, List.cons_append, List.cons_append, List.nil_append, untilQuote, ih, hc]
      rfl
    · rw [if_neg hc, List.singleton_append, untilQuote, ih]
      · rfl
      · intro _ he
        exact absurd he hc
      · exact hc

theorem readAs_quoteText (s : String) : ReadAs (quoteText s).toList [.text s] := by
  rw [quoteText, String.toList_ofList, List.cons_append]
  apply ReadAs.of_token (by decide)
  intro rest hrest
  rw [List.append_assoc, List.singleton_append, token?, if_pos rfl, untilQuote_doubled _ hrest]
  simp only [Option.map_some, String.ofList_toList]

end CohortAnalytics.Inline
