import CohortAnalytics.Proofs.Cohort.Reading
import CohortAnalytics.Warehouse.Event

/-!
A predicate as the store gets it, a text with placeholders and the parameters for them, and the
events that it selects.
-/

namespace CohortAnalytics

namespace Bound

open Inline

def placeholder : Inline.Token := .symbol '?'

/-- Each placeholder takes the next parameter. There is one parameter for each. -/
def bind? : List Inline.Token → List Json → Option (List Inline.Token)
  | [], [] => some []
  | [], _ :: _ => none
  | t :: ts, vs =>
    if t = placeholder then
      match vs with
      | v :: vs => (bind? ts vs).map (Condition.literalToken v :: ·)
      | [] => none
    else (bind? ts vs).map (t :: ·)

def read? (sql : String) (params : List Json) : Option Predicate :=
  if sql = Predicate.everything then if params.isEmpty then some [] else none
  else do
    let ts ← bind? (← tokens? sql) params
    conditionsIn ts.length.succ ts

/-- The text with these parameters is a predicate that holds of the event. -/
def Selects (sql : String) (params : List Json) (e : StoredEvent) : Prop :=
  ∃ p, read? sql params = some p ∧ p.holds e = true

theorem bind?_cons_of_ne {t : Inline.Token} (ht : t ≠ placeholder) (ts : List Inline.Token)
    (vs : List Json) :
    bind? (t :: ts) vs = (bind? ts vs).map (t :: ·) := by
  cases vs <;> simp [bind?, ht]

theorem bind?_condition (c : Condition) (ts : List Inline.Token) (vs : List Json) :
    bind? (c.tokens (fun _ => placeholder) ++ ts) (c.params ++ vs) =
      (bind? ts vs).map (c.tokens Condition.literalToken ++ ·) := by
  cases c with
  | textIs column text =>
    simp [Condition.tokens, Condition.params, bind?, placeholder, Option.map_map, Function.comp_def]
  | textLike column pattern =>
    simp [Condition.tokens, Condition.params, bind?, placeholder, Option.map_map, Function.comp_def]
  | number column test =>
    cases test <;>
      simp [Condition.tokens, Condition.params, NumberTest.params, bind?, placeholder,
        Option.map_map, Function.comp_def]
  | deadClickIs value =>
    simp [Condition.tokens, Condition.params, bind?, placeholder, Option.map_map, Function.comp_def]

theorem bind?_predicate {p : Predicate} (hne : p ≠ []) :
    bind? (p.tokens fun _ => placeholder) p.params = some (p.tokens Condition.literalToken) := by
  induction p with
  | nil => exact absurd rfl hne
  | cons c p ih =>
    cases p with
    | nil =>
      have h := bind?_condition c [] []
      simpa [Predicate.tokens_singleton, Predicate.params, bind?] using h
    | cons d p =>
      rw [Predicate.tokens_cons_cons, Predicate.tokens_cons_cons, Predicate.params,
        List.flatMap_cons, ← Predicate.params, bind?_condition,
        bind?_cons_of_ne (by decide), ih (by simp)]
      rfl

theorem column_head (c : Condition) : ∃ d, c.column.toList.head? = some d ∧ d ≠ '1' := by
  have htext (column : TextColumn) : column.name.toList.head?.any (· ≠ '1') := by
    cases column <;> decide
  have hnumber (column : NumberColumn) : column.name.toList.head?.any (· ≠ '1') := by
    cases column <;> decide
  have hdeadClick : deadClickColumn.toList.head?.any (· ≠ '1') := by decide
  have h : c.column.toList.head?.any (· ≠ '1') := by
    cases c with
    | textIs column _ => exact htext column
    | textLike column _ => exact htext column
    | number column _ => exact hnumber column
    | deadClickIs _ => exact hdeadClick
  simpa [Option.any_eq_true] using h

theorem sql_ne_everything {p : Predicate} (hne : p ≠ []) : p.sql ≠ Predicate.everything := by
  obtain ⟨c, p, rfl⟩ := List.exists_cons_of_ne_nil hne
  obtain ⟨rest, hrest⟩ := Predicate.sql_prefix c p
  obtain ⟨d, hcolumn, hd⟩ := column_head c
  intro h
  have hfirst := congrArg (fun s => s.toList.head?) (hrest.symm.trans h)
  simp only [String.toList_append, List.head?_append, hcolumn, Option.some_or] at hfirst
  exact hd (Option.some.inj hfirst)

theorem tokens?_sql {p : Predicate} (hne : p ≠ []) :
    tokens? p.sql = some (p.tokens fun _ => placeholder) := by
  have hplaceholder : ReadAs "?".toList [placeholder] :=
    readAs_symbol (by decide) (by decide) (by decide) (by decide)
  exact (Predicate.readAs_joined hne fun _ _ _ _ => hplaceholder).tokens?_eq

theorem read?_sql (p : Predicate) : read? p.sql p.params = some p := by
  by_cases hne : p = []
  · subst hne
    rfl
  rw [read?, if_neg (sql_ne_everything hne), tokens?_sql hne]
  simp only [Option.bind_eq_bind, Option.bind_some, bind?_predicate hne]
  exact Predicate.conditionsIn_allTokens hne

theorem selects_sql_iff (p : Predicate) (e : StoredEvent) :
    Selects p.sql p.params e ↔ p.holds e = true := by
  rw [Selects, read?_sql]
  simp

end Bound

end CohortAnalytics
