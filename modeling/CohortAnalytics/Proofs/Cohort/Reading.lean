import CohortAnalytics.Proofs.Cohort.Lexing

/-!
The text of a predicate holds its tokens, and its tokens give back the predicate. How parameters are
written is left open.
-/

namespace CohortAnalytics

open Inline

theorem readAs_textColumn (c : TextColumn) : ReadAs c.name.toList [.word c.name] := by
  cases c <;> exact readAs_word (by decide) (by decide)

theorem readAs_numberColumn (c : NumberColumn) : ReadAs c.name.toList [.word c.name] := by
  cases c <;> exact readAs_word (by decide) (by decide)

theorem readAs_deadClickColumn : ReadAs deadClickColumn.toList [.word deadClickColumn] :=
  readAs_word (by decide) (by decide)

theorem readAs_and : ReadAs "AND".toList [.word "AND"] := readAs_word (by decide) (by decide)

namespace Condition

theorem readAs_comparison {column op literal : String} {c : Char} {t : Inline.Token}
    (hcolumn : ReadAs column.toList [.word column]) (hop : op = String.ofList [c])
    (hc : c = '=' ∨ c = '>' ∨ c = '<') (hliteral : ReadAs literal.toList [t]) :
    ReadAs (withLiterals column op [literal]).toList [.word column, .symbol c, t] := by
  have hsymbol : ReadAs [c] [.symbol c] := by
    rcases hc with rfl | rfl | rfl <;>
      exact readAs_symbol (by decide) (by decide) (by decide) (by decide)
  have hlike : op ≠ "LIKE" := by
    rintro rfl
    exact absurd (String.ofList_injective hop) (by simp)
  rw [withLiterals, if_neg hlike]
  simpa [hop] using (hcolumn.spaced hsymbol).spaced hliteral

theorem readAs_like {column literal : String} {t : Inline.Token}
    (hcolumn : ReadAs column.toList [.word column]) (hliteral : ReadAs literal.toList [t]) :
    ReadAs (withLiterals column "LIKE" [literal]).toList
      [.word column, .word "LIKE", t, .word "ESCAPE", .text "\\"] := by
  have hlike : ReadAs "LIKE".toList [.word "LIKE"] := readAs_word (by decide) (by decide)
  have hescape : ReadAs "ESCAPE".toList [.word "ESCAPE"] := readAs_word (by decide) (by decide)
  have hbackslash : ReadAs ['\x27', '\\', '\x27'] [.text "\\"] := readAs_quoteText "\\"
  rw [withLiterals, if_pos rfl]
  simpa using (((hcolumn.spaced hlike).spaced hliteral).spaced hescape).spaced hbackslash

theorem readAs_between {column op low high : String} {t u : Inline.Token}
    (hcolumn : ReadAs column.toList [.word column]) (hlow : ReadAs low.toList [t])
    (hhigh : ReadAs high.toList [u]) :
    ReadAs (withLiterals column op [low, high]).toList
      [.word column, .word "BETWEEN", t, .word "AND", u] := by
  have hbetween : ReadAs "BETWEEN".toList [.word "BETWEEN"] := readAs_word (by decide) (by decide)
  rw [withLiterals]
  simpa using (((hcolumn.spaced hbetween).spaced hlow).spaced readAs_and).spaced hhigh

def tokens (written : Json → Inline.Token) : Condition → List Inline.Token
  | .textIs column text => [.word column.name, .symbol '=', written (.text text)]
  | .textLike column pattern =>
    [.word column.name, .word "LIKE", written (.text pattern), .word "ESCAPE", .text "\\"]
  | .number column (.equals x) => [.word column.name, .symbol '=', written (.float x)]
  | .number column (.above x) => [.word column.name, .symbol '>', written (.float x)]
  | .number column (.below x) => [.word column.name, .symbol '<', written (.float x)]
  | .number column (.between low high) =>
    [.word column.name, .word "BETWEEN", written (.float low), .word "AND", written (.float high)]
  | .deadClickIs value => [.word deadClickColumn, .symbol '=', written (.bool value)]

variable {written : Json → Inline.Token} {literal : Json → String}

theorem readAs_tokens {c : Condition} (h : ∀ v ∈ c.params, ReadAs (literal v).toList [written v]) :
    ReadAs (withLiterals c.column c.op (c.params.map literal)).toList (c.tokens written) := by
  cases c with
  | textIs column text =>
    exact readAs_comparison (readAs_textColumn column) rfl (.inl rfl) (h (.text text) (.head _))
  | textLike column pattern =>
    exact readAs_like (readAs_textColumn column) (h (.text pattern) (.head _))
  | number column test =>
    have hcolumn := readAs_numberColumn column
    cases test with
    | equals x => exact readAs_comparison hcolumn rfl (.inl rfl) (h (.float x) (.head _))
    | above x => exact readAs_comparison hcolumn rfl (.inr (.inl rfl)) (h (.float x) (.head _))
    | below x => exact readAs_comparison hcolumn rfl (.inr (.inr rfl)) (h (.float x) (.head _))
    | between low high =>
      exact readAs_between hcolumn (h (.float low) (.head _)) (h (.float high) (.tail _ (.head _)))
  | deadClickIs value =>
    exact readAs_comparison readAs_deadClickColumn rfl (.inl rfl) (h (.bool value) (.head _))

/-- What a parameter has to be read as for the condition to be read back. -/
def literalToken : Json → Inline.Token
  | .text s => .text s
  | .number (.float x) => .number x
  | .bool b => .word (if b then "true" else "false")
  | v => .text v.display

theorem condition?_tokens (c : Condition) (rest : List Inline.Token) :
    condition? (c.tokens literalToken ++ rest) = some (c, rest) := by
  cases c with
  | textIs column text =>
    simp only [tokens, literalToken, List.cons_append, List.nil_append, condition?]
    cases column <;> rfl
  | textLike column pattern =>
    simp only [tokens, literalToken, List.cons_append, List.nil_append, condition?]
    cases column <;> rfl
  | number column test =>
    cases test <;> simp only [tokens, literalToken, List.cons_append, List.nil_append, condition?] <;>
      cases column <;> rfl
  | deadClickIs value =>
    simp only [tokens, literalToken, List.cons_append, List.nil_append, condition?]
    cases value <;> rfl

end Condition

namespace Predicate

variable {written : Json → Inline.Token} {literal : Json → String}

def tokens (written : Json → Inline.Token) (p : Predicate) : List Inline.Token :=
  [Inline.Token.word "AND"].intercalate (p.map (Condition.tokens written))

theorem tokens_singleton (c : Condition) : tokens written [c] = c.tokens written :=
  List.intercalate_singleton

theorem tokens_cons_cons (c d : Condition) (p : Predicate) :
    tokens written (c :: d :: p) = c.tokens written ++ .word "AND" :: tokens written (d :: p) := by
  rw [tokens, List.map_cons, List.map_cons, List.intercalate_cons_cons, ← List.map_cons, ← tokens]
  simp

theorem tokens_cons (c : Condition) (p : Predicate) :
    ∃ ts, tokens written (c :: p) = .word c.column :: ts := by
  obtain ⟨ts, hc⟩ : ∃ ts, c.tokens written = .word c.column :: ts := by
    cases c with
    | number column test => cases test <;> exact ⟨_, rfl⟩
    | _ => exact ⟨_, rfl⟩
  cases p with
  | nil => exact ⟨ts, by rw [tokens_singleton, hc]⟩
  | cons d p => exact ⟨_, by rw [tokens_cons_cons, hc, List.cons_append]⟩

theorem readAs_joined {p : Predicate} (hne : p ≠ [])
    (h : ∀ c ∈ p, ∀ v ∈ c.params, ReadAs (literal v).toList [written v]) :
    ReadAs (joined (p.map fun c => Condition.withLiterals c.column c.op (c.params.map literal))).toList
      (tokens written p) := by
  induction p with
  | nil => exact absurd rfl hne
  | cons c p ih =>
    have hc := Condition.readAs_tokens (h c (.head _))
    cases p with
    | nil =>
      rw [tokens_singleton]
      simpa [joined] using hc
    | cons d p =>
      have hrest := ih (by simp) fun c hc => h c (.tail _ hc)
      obtain ⟨ts, hts⟩ := @tokens_cons written d p
      rw [tokens_cons_cons, hts]
      rw [hts] at hrest
      simpa [joined] using (hc.spaced readAs_and).spaced hrest

theorem length_le_tokens (p : Predicate) (written : Json → Inline.Token) :
    p.length ≤ (p.tokens written).length := by
  induction p with
  | nil => exact Nat.zero_le _
  | cons c p ih =>
    cases p with
    | nil =>
      obtain ⟨ts, hts⟩ := @tokens_cons written c []
      simp [hts]
    | cons d p =>
      rw [tokens_cons_cons]
      simp only [List.length_append, List.length_cons] at ih ⊢
      omega

theorem conditionsIn_tokens {p : Predicate} (hne : p ≠ []) {turns : Nat} (h : p.length ≤ turns) :
    conditionsIn turns (tokens Condition.literalToken p) = some p := by
  induction p generalizing turns with
  | nil => exact absurd rfl hne
  | cons c p ih =>
    obtain ⟨turns, rfl⟩ : ∃ n, turns = n + 1 := ⟨turns - 1, by simp at h; omega⟩
    have hlength : p.length ≤ turns := by simpa using h
    cases p with
    | nil =>
      have hc := c.condition?_tokens []
      rw [List.append_nil] at hc
      simp [tokens_singleton, conditionsIn, hc]
    | cons d p =>
      rw [tokens_cons_cons, conditionsIn, c.condition?_tokens]
      simp [ih (by simp) hlength]

/-- Each condition takes one turn and has at least one token. -/
theorem conditionsIn_allTokens {p : Predicate} (hne : p ≠ []) :
    conditionsIn (p.tokens Condition.literalToken).length.succ (p.tokens Condition.literalToken) =
      some p :=
  conditionsIn_tokens hne (Nat.le_succ_of_le (length_le_tokens p _))

theorem sql_prefix (c : Condition) (p : Predicate) :
    ∃ rest, sql (c :: p) = c.column ++ rest := by
  obtain ⟨rest, hrest⟩ : ∃ rest, c.sql = c.column ++ rest := by
    unfold Condition.sql Condition.withLiterals
    split
    · exact ⟨_, by simp only [String.append_assoc]; rfl⟩
    · exact ⟨_, by simp only [String.append_assoc]; rfl⟩
    · exact ⟨"", String.append_empty.symm⟩
  cases p with
  | nil => exact ⟨rest, by simp [sql, joined, hrest]⟩
  | cons d p =>
    refine ⟨rest ++ " AND " ++ sql (d :: p), ?_⟩
    simp [sql, joined, hrest, String.intercalate_cons_cons, String.append_assoc]

end Predicate

end CohortAnalytics
