import CohortAnalytics.Query.Written
import Mathlib

/-!
How written filters are read when they are put together: texts joined by AND are read as their
clauses one after the other, and a text in brackets as one test.
-/

namespace CohortAnalytics

namespace Clause

theorem followedBy_cons_cons (ts us : List EventTest) (a b : Clause) :
    followedBy (ts :: us :: a) b = ts :: followedBy (us :: a) b := rfl

theorem followedBy_ne_nil {a : Clause} (h : a ≠ []) (b : Clause) : followedBy a b ≠ [] := by
  cases a with
  | nil => exact absurd rfl h
  | cons ts a => cases a <;> cases b <;> simp [followedBy]

theorem followedBy_assoc (a b c : Clause) :
    followedBy (followedBy a b) c = followedBy a (followedBy b c) := by
  induction a with
  | nil => rfl
  | cons ts a ih =>
    cases a with
    | cons us a =>
      obtain ⟨vs, d, hd⟩ := List.exists_cons_of_ne_nil (followedBy_ne_nil (List.cons_ne_nil us a) b)
      rw [followedBy_cons_cons, followedBy_cons_cons, ← ih, hd, followedBy_cons_cons]
    | nil =>
      cases b with
      | nil => rfl
      | cons us b =>
        cases b with
        | nil => cases c <;> simp [followedBy]
        | cons vs b => rfl

end Clause

namespace Written

/-- A character that ends every token before it. -/
structure IsStop (c : Char) : Prop where
  notWord : isWordChar c = false
  notCompare : isCompareChar c = false

/-- The first token of a text and what stands after it. -/
def next? (cs : List Char) : Option (Token × List Char) :=
  match cs.dropWhile isGap with
  | [] => none
  | c :: rest =>
    if isWordChar c then
      some (.word (String.ofList ((c :: rest).takeWhile isWordChar)), rest.dropWhile isWordChar)
    else if isCompareChar c then
      some (.symbol (String.ofList ((c :: rest).takeWhile isCompareChar)),
        rest.dropWhile isCompareChar)
    else some (.symbol (String.singleton c), rest)

theorem tokensIn_succ (n : ℕ) (cs : List Char) :
    tokensIn (n + 1) cs = match next? cs with
      | none => []
      | some (t, rest) => t :: tokensIn n rest := by
  rw [tokensIn, next?]
  cases cs.dropWhile isGap with
  | nil => rfl
  | cons c rest =>
    dsimp only
    split_ifs <;> rfl

theorem length_next? {cs rest : List Char} {t : Token} (h : next? cs = some (t, rest)) :
    rest.length < cs.length := by
  have hgap := (List.dropWhile_suffix isGap (l := cs)).length_le
  rw [next?] at h
  cases hdrop : cs.dropWhile isGap with
  | nil => simp [hdrop] at h
  | cons c tail =>
    rw [hdrop, List.length_cons] at hgap
    rw [hdrop] at h
    dsimp only at h
    have hword := (List.dropWhile_suffix isWordChar (l := tail)).length_le
    have hcompare := (List.dropWhile_suffix isCompareChar (l := tail)).length_le
    split_ifs at h <;> obtain ⟨-, rfl⟩ := Prod.mk.inj (Option.some.inj h) <;> omega

theorem takeWhile_append_stop {p : Char → Bool} {c : Char} (h : p c = false) (as bs : List Char) :
    (as ++ c :: bs).takeWhile p = as.takeWhile p := by
  induction as with
  | nil => simp [h]
  | cons a as ih => simp [List.takeWhile_cons, ih]

theorem dropWhile_append_stop {p : Char → Bool} {c : Char} (h : p c = false) (as bs : List Char) :
    (as ++ c :: bs).dropWhile p = as.dropWhile p ++ c :: bs := by
  induction as with
  | nil => simp [h]
  | cons a as ih =>
    rw [List.cons_append, List.dropWhile_cons, List.dropWhile_cons, ih]
    split_ifs <;> rfl

theorem next?_append {c : Char} (hc : IsStop c) (as bs : List Char) :
    next? (as ++ c :: bs) = match next? as with
      | none => next? (c :: bs)
      | some (t, rest) => some (t, rest ++ c :: bs) := by
  rw [next?, next?, List.dropWhile_append]
  cases hdrop : as.dropWhile isGap with
  | nil => rfl
  | cons a rest =>
    simp only [List.isEmpty_cons, Bool.false_eq_true, if_false, List.cons_append]
    have htake {p : Char → Bool} (hp : p c = false) :
        (a :: (rest ++ c :: bs)).takeWhile p = (a :: rest).takeWhile p :=
      takeWhile_append_stop hp (a :: rest) bs
    rw [htake hc.notWord, htake hc.notCompare, dropWhile_append_stop hc.notWord,
      dropWhile_append_stop hc.notCompare]
    split_ifs <;> rfl

theorem tokensIn_enough {n : ℕ} {cs : List Char} (h : cs.length ≤ n) :
    tokensIn n cs = tokensIn cs.length cs := by
  induction n using Nat.strong_induction_on generalizing cs with
  | _ n ih =>
    cases n with
    | zero => rw [Nat.le_zero.mp h]
    | succ n =>
      cases cs with
      | nil => rw [tokensIn_succ]; rfl
      | cons c rest =>
        rw [List.length_cons, tokensIn_succ, tokensIn_succ]
        cases hnext : next? (c :: rest) with
        | none => rfl
        | some next =>
          obtain ⟨t, tail⟩ := next
          have hlength := length_next? hnext
          rw [List.length_cons] at h hlength
          dsimp only
          rw [ih n (by omega) (by omega), ih rest.length (by omega) (by omega)]

theorem tokensIn_append {c : Char} (hc : IsStop c) {n : ℕ} {as bs : List Char}
    (h : (as ++ c :: bs).length ≤ n) :
    tokensIn n (as ++ c :: bs) = tokensIn n as ++ tokensIn n (c :: bs) := by
  induction n generalizing as with
  | zero => simp at h
  | succ n ih =>
    rw [tokensIn_succ n (as ++ c :: bs), tokensIn_succ n as, next?_append hc]
    cases hnext : next? as with
    | none => rw [tokensIn_succ]; rfl
    | some next =>
      obtain ⟨t, rest⟩ := next
      have hlength := length_next? hnext
      rw [List.length_append, List.length_cons] at h
      dsimp only
      have hlater : tokensIn (n + 1) (c :: bs) = tokensIn n (c :: bs) := by
        rw [tokensIn_enough (n := n + 1), tokensIn_enough (n := n)] <;> rw [List.length_cons] <;> omega
      rw [ih (by rw [List.length_append, List.length_cons]; omega), hlater, List.cons_append]

def tokensOf (cs : List Char) : List Token := tokensIn cs.length cs

theorem tokens_eq (s : String) : tokens s = tokensOf s.toList := rfl

theorem tokensOf_append {c : Char} (hc : IsStop c) (as bs : List Char) :
    tokensOf (as ++ c :: bs) = tokensOf as ++ tokensOf (c :: bs) := by
  have has : as.length ≤ (as ++ c :: bs).length := by simp
  have hbs : (c :: bs).length ≤ (as ++ c :: bs).length := by simp
  rw [tokensOf, tokensIn_append hc le_rfl, tokensIn_enough has, tokensIn_enough hbs, tokensOf, tokensOf]

theorem tokensOf_blank (cs : List Char) : tokensOf (' ' :: cs) = tokensOf cs := by
  have hnext : next? (' ' :: cs) = next? cs := by
    rw [next?, next?, List.dropWhile_cons_of_pos rfl]
  rw [tokensOf, tokensOf, ← tokensIn_enough (Nat.le_succ cs.length), List.length_cons, tokensIn_succ,
    tokensIn_succ, hnext]

theorem isStop_blank : IsStop ' ' := ⟨by decide, by decide⟩

theorem isStop_close : IsStop ')' := ⟨by decide, by decide⟩

theorem tokens_and (a b : String) :
    tokens (a ++ " AND " ++ b) = tokens a ++ .word "AND" :: tokens b := by
  have htext : (a ++ " AND " ++ b).toList = a.toList ++ ' ' :: (['A', 'N', 'D'] ++ ' ' :: b.toList) := by
    simp
  have hand : tokensOf [' ', 'A', 'N', 'D'] = [.word "AND"] := by decide +kernel
  rw [tokens_eq, htext, tokensOf_append isStop_blank, ← List.cons_append,
    tokensOf_append isStop_blank, hand, tokensOf_blank]
  rfl

theorem tokens_bracketed (a : String) :
    tokens ("(" ++ a ++ ")") = .symbol "(" :: (tokens a ++ [.symbol ")"]) := by
  have htext : ("(" ++ a ++ ")").toList = '(' :: (a.toList ++ ')' :: []) := by simp
  have hopen (cs : List Char) : tokensOf ('(' :: cs) = .symbol "(" :: tokensOf cs := by
    rw [tokensOf, List.length_cons, tokensIn_succ]
    rfl
  have hclose : tokensOf [')'] = [.symbol ")"] := by decide +kernel
  rw [tokens_eq, htext, hopen, tokensOf_append isStop_close, hclose]
  rfl

/-- The readings of a test, with `n` turns for what is in brackets. -/
inductive ReadsTest (n : ℕ) : Rest → EventTest → Rest → Prop
  | grouped {ts us : List Token} {ps qs : List Json} {c : Clause}
      (h : readClause? n ⟨ts, ps⟩ = some (c, ⟨.symbol ")" :: us, qs⟩)) :
      ReadsTest n ⟨.symbol "(" :: ts, ps⟩ (.grouped c) ⟨us, qs⟩
  | compare {name symbol : String} {ts : List Token} {v : Json} {ps : List Json} {t : EventTest}
      (h : compare? name symbol v = some t) :
      ReadsTest n ⟨.word name :: .symbol symbol :: .symbol "?" :: ts, v :: ps⟩ t ⟨ts, ps⟩

/-- A clause ends where neither AND nor OR follows. -/
def Ends (ts : List Token) : Prop :=
  ∀ t ∈ ts.head?, isWord "AND" t = false ∧ isWord "OR" t = false

/-- The readings of a clause, with `n` turns for all that follows its first word. -/
inductive ReadsClause (n : ℕ) : Rest → Clause → Rest → Prop
  | last {r s : Rest} {t : EventTest} (h : readTest? n r = some (t, s)) (hends : Ends s.tokens) :
      ReadsClause n r [[t]] s
  | and {r s : Rest} {t : EventTest} {next : Token} {ts : List Token} {ps : List Json} {c : Clause}
      (h : readTest? n r = some (t, ⟨next :: ts, ps⟩)) (hand : isWord "AND" next = true)
      (hrest : readClause? n ⟨ts, ps⟩ = some (c, s)) : ReadsClause n r (Clause.followedBy [[t]] c) s
  | or {r s : Rest} {t : EventTest} {next : Token} {ts : List Token} {ps : List Json} {c : Clause}
      (h : readTest? n r = some (t, ⟨next :: ts, ps⟩)) (hand : isWord "AND" next = false)
      (hor : isWord "OR" next = true) (hrest : readClause? n ⟨ts, ps⟩ = some (c, s)) :
      ReadsClause n r ([t] :: c) s

theorem readTest?_iff {n : ℕ} {r s : Rest} {t : EventTest} :
    readTest? (n + 1) r = some (t, s) ↔ ReadsTest n r t s := by
  constructor
  · intro h
    obtain ⟨ts, ps⟩ := r
    rw [readTest?.eq_def] at h
    dsimp only at h
    split at h
    · obtain ⟨⟨c, rest⟩, hclause, h⟩ := Option.bind_eq_some_iff.mp h
      split at h
      · rename_i heq
        cases heq
        cases h
        exact .grouped hclause
      · cases h
    · obtain ⟨u, hu, h⟩ := Option.map_eq_some_iff.mp h
      cases h
      exact .compare hu
    · cases h
  · intro h
    cases h with
    | grouped h =>
      rw [readTest?.eq_def]
      simp [h]
    | compare h =>
      rw [readTest?.eq_def]
      simp [h]

theorem readClause?_iff {n : ℕ} {r s : Rest} {c : Clause} :
    readClause? (n + 1) r = some (c, s) ↔ ReadsClause n r c s := by
  constructor
  · intro h
    rw [readClause?.eq_def] at h
    dsimp only at h
    obtain ⟨⟨t, ts, ps⟩, htest, h⟩ := Option.bind_eq_some_iff.mp h
    cases ts with
    | nil =>
      cases h
      exact .last htest (by simp [Ends])
    | cons next ts =>
      dsimp only at h
      split_ifs at h with hand hor
      · obtain ⟨⟨d, rest⟩, hrest, h⟩ := Option.bind_eq_some_iff.mp h
        cases h
        exact .and htest hand hrest
      · obtain ⟨⟨d, rest⟩, hrest, h⟩ := Option.bind_eq_some_iff.mp h
        cases h
        exact .or htest (Bool.eq_false_iff.mpr hand) hor hrest
      · cases h
        exact .last htest (by simp [Ends, hand, hor])
  · intro h
    rw [readClause?.eq_def]
    cases h with
    | last h hends =>
      obtain ⟨ts, ps⟩ := s
      cases ts with
      | nil => simp [h]
      | cons next ts =>
        obtain ⟨hand, hor⟩ := hends next rfl
        simp [h, hand, hor]
    | and h hand hrest => simp [h, hand, hrest]
    | or h hand hor hrest => simp [h, hand, hor, hrest]

def Rest.append (r s : Rest) : Rest := ⟨r.tokens ++ s.tokens, r.params ++ s.params⟩

theorem read_mono (n : ℕ) :
    (∀ r t s, readTest? n r = some (t, s) → readTest? (n + 1) r = some (t, s)) ∧
      ∀ r c s, readClause? n r = some (c, s) → readClause? (n + 1) r = some (c, s) := by
  induction n with
  | zero => exact ⟨fun _ _ _ h => by simp [readTest?] at h, fun _ _ _ h => by simp [readClause?] at h⟩
  | succ n ih =>
    obtain ⟨ihTest, ihClause⟩ := ih
    constructor
    · intro r t s h
      rw [readTest?_iff] at h ⊢
      cases h with
      | grouped h => exact .grouped (ihClause _ _ _ h)
      | compare h => exact .compare h
    · intro r c s h
      rw [readClause?_iff] at h ⊢
      cases h with
      | last h hends => exact .last (ihTest _ _ _ h) hends
      | and h hand hrest => exact .and (ihTest _ _ _ h) hand (ihClause _ _ _ hrest)
      | or h hand hor hrest => exact .or (ihTest _ _ _ h) hand hor (ihClause _ _ _ hrest)

theorem readTest?_mono {n m : ℕ} {r s : Rest} {t : EventTest} (h : readTest? n r = some (t, s))
    (hle : n ≤ m) : readTest? m r = some (t, s) := by
  induction m, hle using Nat.le_induction with
  | base => exact h
  | succ m _ ih => exact (read_mono m).1 _ _ _ ih

theorem readClause?_mono {n m : ℕ} {r s : Rest} {c : Clause} (h : readClause? n r = some (c, s))
    (hle : n ≤ m) : readClause? m r = some (c, s) := by
  induction m, hle using Nat.le_induction with
  | base => exact h
  | succ m _ ih => exact (read_mono m).2 _ _ _ ih

/-- Nothing after a test changes how it is read, and nothing after a clause that does not go on
with it. -/
theorem read_append (n : ℕ) (more : Rest) :
    (∀ r t s, readTest? n r = some (t, s) →
        readTest? n (r.append more) = some (t, s.append more)) ∧
      ∀ r c s, readClause? n r = some (c, s) → s.tokens ≠ [] ∨ Ends more.tokens →
        readClause? n (r.append more) = some (c, s.append more) := by
  induction n with
  | zero => exact ⟨fun _ _ _ h => by simp [readTest?] at h, fun _ _ _ h => by simp [readClause?] at h⟩
  | succ n ih =>
    obtain ⟨ihTest, ihClause⟩ := ih
    constructor
    · intro r t s h
      rw [readTest?_iff] at h ⊢
      cases h with
      | grouped h => exact .grouped (ihClause _ _ _ h (.inl (List.cons_ne_nil _ _)))
      | compare h => exact .compare h
    · intro r c s h hmore
      rw [readClause?_iff] at h ⊢
      cases h with
      | last h hends =>
        refine .last (ihTest _ _ _ h) ?_
        obtain ⟨ts, ps⟩ := s
        cases ts with
        | nil => exact hmore.resolve_left (by simp)
        | cons next ts => exact hends
      | and h hand hrest => exact .and (ihTest _ _ _ h) hand (ihClause _ _ _ hrest hmore)
      | or h hand hor hrest => exact .or (ihTest _ _ _ h) hand hor (ihClause _ _ _ hrest hmore)

theorem readClause?_ne_nil {n : ℕ} {r s : Rest} {c : Clause} (h : readClause? n r = some (c, s)) :
    c ≠ [] := by
  cases n with
  | zero => simp [readClause?] at h
  | succ n =>
    cases readClause?_iff.mp h with
    | last => simp
    | and => exact Clause.followedBy_ne_nil (by simp) _
    | or => simp

theorem readClause?_and {n m : ℕ} {r s : Rest} {c d : Clause} {next : Token} {ts : List Token}
    {ps qs : List Json} (hc : readClause? n r = some (c, ⟨[], ps⟩)) (hand : isWord "AND" next = true)
    (hd : readClause? m ⟨ts, ps ++ qs⟩ = some (d, s)) :
    readClause? (n + m) (r.append ⟨next :: ts, qs⟩) = some (c.followedBy d, s) := by
  -- By induction on the turns of the first clause, whose last test is now followed by AND.
  induction n generalizing r c with
  | zero => simp [readClause?] at hc
  | succ n ih =>
    rw [Nat.succ_add, readClause?_iff]
    have htest {u : EventTest} {s : Rest} (h : readTest? n r = some (u, s)) :
        readTest? (n + m) (r.append ⟨next :: ts, qs⟩) = some (u, s.append ⟨next :: ts, qs⟩) :=
      readTest?_mono ((read_append n _).1 _ _ _ h) (Nat.le_add_right n m)
    cases readClause?_iff.mp hc with
    | last h hends => exact .and (htest h) hand (readClause?_mono hd (Nat.le_add_left m n))
    | and h hword hrest =>
      rw [Clause.followedBy_assoc]
      exact .and (htest h) hword (ih hrest)
    | or h hword hor hrest =>
      obtain ⟨us, c, rfl⟩ := List.exists_cons_of_ne_nil (readClause?_ne_nil hrest)
      exact .or (htest h) hword hor (ih hrest)

theorem clause?_eq_some {text : String} {params : List Json} {c : Clause} :
    clause? text params = some c ↔
      readClause? (2 * (tokens text).length + 1) ⟨tokens text, params⟩ = some (c, ⟨[], []⟩) := by
  rw [clause?]
  split
  · rename_i d heq
    simp [heq]
  · rename_i hnone
    simp only [reduceCtorEq, false_iff]
    exact hnone c

theorem clause?_and {a b : String} {ps qs : List Json} {c d : Clause} (hc : clause? a ps = some c)
    (hd : clause? b qs = some d) : clause? (a ++ " AND " ++ b) (ps ++ qs) = some (c.followedBy d) := by
  rw [clause?_eq_some] at hc hd ⊢
  rw [tokens_and]
  have hand : isWord "AND" (.word "AND") = true := by decide +kernel
  refine readClause?_mono (readClause?_and hc hand hd) ?_
  rw [List.length_append, List.length_cons]
  omega

theorem clause?_bracketed {a : String} {ps : List Json} {c : Clause} (h : clause? a ps = some c) :
    clause? ("(" ++ a ++ ")") ps = some [[.grouped c]] := by
  rw [clause?_eq_some] at h ⊢
  rw [tokens_bracketed]
  have hinner := (read_append _ ⟨[.symbol ")"], []⟩).2 _ _ _ h (.inr (by simp [Ends, isWord]))
  rw [Rest.append, List.append_nil] at hinner
  have htest := readTest?_iff.mpr (.grouped hinner)
  refine readClause?_mono (readClause?_iff.mpr (.last htest (by simp [Ends]))) ?_
  rw [List.length_cons, List.length_append]
  omega

end Written

end CohortAnalytics
