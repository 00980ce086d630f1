import CohortAnalytics.Json.Writer
import Mathlib

/-!
Quoted text ends at one place only: no escape holds a bare quote, and no escape is the start of
another.
-/

namespace CohortAnalytics

theorem append_cons_inj {α : Type} {a : α} {xs ys rest more : List α} (hx : a ∉ xs) (hy : a ∉ ys)
    (h : xs ++ a :: rest = ys ++ a :: more) : xs = ys ∧ rest = more := by
  induction xs generalizing ys with
  | nil =>
    cases ys with
    | nil => exact ⟨rfl, (List.cons.inj h).2⟩
    | cons y ys => exact absurd (List.cons.inj h).1 fun heq => hy (by simp [heq])
  | cons x xs ih =>
    cases ys with
    | nil => exact absurd (List.cons.inj h).1 fun heq => hx (by simp [heq])
    | cons y ys =>
      obtain ⟨rfl, htail⟩ := List.cons.inj h
      obtain ⟨rfl, hrest⟩ := ih (fun hm => hx (List.mem_cons_of_mem _ hm))
        (fun hm => hy (List.mem_cons_of_mem _ hm)) htail
      exact ⟨rfl, hrest⟩

theorem digitChar_inj : ∀ m < 16, ∀ n < 16, Nat.digitChar m = Nat.digitChar n → m = n := by
  decide

theorem hexDigits_succ (width n : ℕ) (hwidth : 0 < width) :
    hexDigits (width + 1) n = hexDigits width (n / 16) ++ [Nat.digitChar (n % 16)] := by
  unfold hexDigits
  by_cases hn : n < 16
  · rw [Nat.toDigits_of_lt_base hn, Nat.div_eq_of_lt hn, Nat.toDigits_zero, Nat.mod_eq_of_lt hn]
    obtain ⟨w, rfl⟩ := Nat.exists_eq_add_of_lt hwidth
    simp [List.replicate_succ']
  · rw [Nat.toDigits_of_base_le (by omega) (Nat.le_of_not_lt hn)]
    simp

theorem hexDigits_spec {width : ℕ} (hwidth : 0 < width) :
    (∀ n < 16 ^ width, (hexDigits width n).length = width) ∧
      ∀ m < 16 ^ width, ∀ n < 16 ^ width, hexDigits width m = hexDigits width n → m = n := by
  induction width, hwidth using Nat.le_induction with
  | base =>
    constructor
    · intro n hn
      simp [hexDigits, Nat.toDigits_of_lt_base (by omega : n < 16)]
    · intro m hm n hn h
      simp only [hexDigits, Nat.toDigits_of_lt_base (by omega : m < 16),
        Nat.toDigits_of_lt_base (by omega : n < 16)] at h
      exact digitChar_inj m (by omega) n (by omega) (by simpa using h)
  | succ width hwidth ih =>
    obtain ⟨hlength, hinj⟩ := ih
    constructor
    · intro n hn
      rw [hexDigits_succ width n hwidth, List.length_append, hlength _ (by rw [pow_succ] at hn; omega)]
      rfl
    · intro m hm n hn h
      rw [pow_succ] at hm hn
      rw [hexDigits_succ width m hwidth, hexDigits_succ width n hwidth] at h
      obtain ⟨hfront, hlast⟩ := List.append_inj' h rfl
      have hdiv := hinj _ (by omega) _ (by omega) hfront
      have hmod := digitChar_inj (m % 16) (by omega) (n % 16) (by omega) (by simpa using hlast)
      omega

theorem hexDigits_append_inj {m n : ℕ} {rest more : List Char} (hm : m < 0x10000) (hn : n < 0x10000)
    (h : hexDigits 4 m ++ rest = hexDigits 4 n ++ more) : m = n ∧ rest = more := by
  obtain ⟨hlength, hinj⟩ := hexDigits_spec (show 0 < 4 by omega)
  have hsame : (hexDigits 4 m).length = (hexDigits 4 n).length := by
    rw [hlength m hm, hlength n hn]
  obtain ⟨hdigits, hrest⟩ := List.append_inj h hsame
  exact ⟨hinj m hm n hn hdigits, hrest⟩

namespace Json

theorem escapeCode_append_of_lt {n : ℕ} (h : n < 0x10000) (rest : List Char) :
    escapeCode n ++ rest = '\\' :: 'u' :: (hexDigits 4 n ++ rest) := by
  rw [escapeCode, if_pos h, List.cons_append, List.cons_append]

theorem escapeCode_append_of_ge {n : ℕ} (h : 0x10000 ≤ n) (rest : List Char) :
    escapeCode n ++ rest = '\\' :: 'u' :: (hexDigits 4 (0xd800 + (n - 0x10000) / 0x400) ++
      '\\' :: 'u' :: (hexDigits 4 (0xdc00 + (n - 0x10000) % 0x400) ++ rest)) := by
  rw [escapeCode, if_neg (Nat.not_lt.mpr h), List.append_assoc, List.cons_append, List.cons_append,
    List.cons_append, List.cons_append]

theorem escapeCode_start (n : ℕ) (rest : List Char) :
    ∃ more, escapeCode n ++ rest = '\\' :: 'u' :: more := by
  rcases Nat.lt_or_ge n 0x10000 with h | h
  · exact ⟨_, escapeCode_append_of_lt h rest⟩
  · exact ⟨_, escapeCode_append_of_ge h rest⟩

/-- The code of a character is no unit of a pair, so codes of one and of two units differ. -/
theorem escapeCode_append_inj {m n : ℕ} {rest more : List Char} (hm : m.isValidChar)
    (hn : n.isValidChar) (h : escapeCode m ++ rest = escapeCode n ++ more) :
    m = n ∧ rest = more := by
  simp only [Nat.isValidChar] at hm hn
  rcases Nat.lt_or_ge m 0x10000 with h1 | h1 <;> rcases Nat.lt_or_ge n 0x10000 with h2 | h2
  · rw [escapeCode_append_of_lt h1, escapeCode_append_of_lt h2] at h
    exact hexDigits_append_inj h1 h2 (List.cons.inj (List.cons.inj h).2).2
  · rw [escapeCode_append_of_lt h1, escapeCode_append_of_ge h2] at h
    have hunit := (hexDigits_append_inj h1 (by omega) (List.cons.inj (List.cons.inj h).2).2).1
    omega
  · rw [escapeCode_append_of_ge h1, escapeCode_append_of_lt h2] at h
    have hunit := (hexDigits_append_inj (by omega) h2 (List.cons.inj (List.cons.inj h).2).2).1
    omega
  · rw [escapeCode_append_of_ge h1, escapeCode_append_of_ge h2] at h
    obtain ⟨hhigh, hlow⟩ :=
      hexDigits_append_inj (by omega) (by omega) (List.cons.inj (List.cons.inj h).2).2
    obtain ⟨hlow, hrest⟩ :=
      hexDigits_append_inj (by omega) (by omega) (List.cons.inj (List.cons.inj hlow).2).2
    exact ⟨by omega, hrest⟩

def unescaped : Char → Char
  | 'n' => '\n'
  | 'r' => '\r'
  | 't' => '\t'
  | 'b' => '\x08'
  | 'f' => '\x0c'
  | c => c

theorem escapeChar_cases (c : Char) :
    (escapeChar c = [c] ∧ c ≠ '\\' ∧ c ≠ '"') ∨
      (∃ letter, escapeChar c = ['\\', letter] ∧ letter ≠ 'u' ∧ unescaped letter = c) ∨
        escapeChar c = escapeCode c.toNat := by
  unfold escapeChar
  split_ifs with hquote hnewline hreturn htab hback hfeed hplain
  · refine .inr (.inl ⟨c, rfl, ?_⟩)
    rcases hquote with rfl | rfl <;> decide
  · exact .inr (.inl ⟨'n', rfl, by decide, hnewline.symm⟩)
  · exact .inr (.inl ⟨'r', rfl, by decide, hreturn.symm⟩)
  · exact .inr (.inl ⟨'t', rfl, by decide, htab.symm⟩)
  · exact .inr (.inl ⟨'b', rfl, by decide, hback.symm⟩)
  · exact .inr (.inl ⟨'f', rfl, by decide, hfeed.symm⟩)
  · exact .inl ⟨rfl, fun h => hquote (.inr h), fun h => hquote (.inl h)⟩
  · exact .inr (.inr rfl)

theorem escapeChar_append_inj {c d : Char} {rest more : List Char}
    (h : escapeChar c ++ rest = escapeChar d ++ more) : c = d ∧ rest = more := by
  obtain ⟨tail, htail⟩ := escapeCode_start c.toNat rest
  obtain ⟨tail', htail'⟩ := escapeCode_start d.toNat more
  rcases escapeChar_cases c with ⟨hc, hslash, -⟩ | ⟨letter, hc, hu, rfl⟩ | hc <;>
    rcases escapeChar_cases d with ⟨hd, hslash', -⟩ | ⟨letter', hd, hu', rfl⟩ | hd <;>
    rw [hc, hd] at h
  · exact List.cons.inj h
  · exact absurd (List.cons.inj h).1 hslash
  · rw [htail'] at h
    exact absurd (List.cons.inj h).1 hslash
  · exact absurd (List.cons.inj h).1.symm hslash'
  · obtain ⟨hletter, hrest⟩ := List.cons.inj (List.cons.inj h).2
    exact ⟨congrArg unescaped hletter, hrest⟩
  · rw [htail'] at h
    exact absurd (List.cons.inj (List.cons.inj h).2).1 hu
  · rw [htail] at h
    exact absurd (List.cons.inj h).1.symm hslash'
  · rw [htail] at h
    exact absurd (List.cons.inj (List.cons.inj h).2).1.symm hu'
  · obtain ⟨hcode, hrest⟩ := escapeCode_append_inj c.valid d.valid h
    exact ⟨Char.toNat_inj.mp hcode, hrest⟩

theorem escapeChar_ne_quote {c : Char} {rest more : List Char} :
    escapeChar c ++ rest ≠ '"' :: more := by
  intro h
  obtain ⟨tail, htail⟩ := escapeCode_start c.toNat rest
  rcases escapeChar_cases c with ⟨hc, -, hquote⟩ | ⟨letter, hc, -⟩ | hc <;> rw [hc] at h
  · exact hquote (List.cons.inj h).1
  · exact absurd (List.cons.inj h).1 (by decide)
  · rw [htail] at h
    exact absurd (List.cons.inj h).1 (by decide)

theorem escaped_append_inj {cs ds : List Char} {rest more : List Char}
    (h : cs.flatMap escapeChar ++ '"' :: rest = ds.flatMap escapeChar ++ '"' :: more) :
    cs = ds ∧ rest = more := by
  induction cs generalizing ds with
  | nil =>
    cases ds with
    | nil => exact ⟨rfl, (List.cons.inj h).2⟩
    | cons d ds =>
      rw [List.flatMap_cons, List.append_assoc] at h
      exact absurd h.symm escapeChar_ne_quote
  | cons c cs ih =>
    rw [List.flatMap_cons, List.append_assoc] at h
    cases ds with
    | nil => exact absurd h escapeChar_ne_quote
    | cons d ds =>
      rw [List.flatMap_cons, List.append_assoc] at h
      obtain ⟨rfl, htail⟩ := escapeChar_append_inj h
      obtain ⟨rfl, hrest⟩ := ih htail
      exact ⟨rfl, hrest⟩

/-- Whatever follows a quoted text, it is the only quoted text in front. -/
theorem quote_append_inj {s t : String} {rest more : List Char}
    (h : quote s ++ rest = quote t ++ more) : s = t ∧ rest = more := by
  simp only [quote, List.cons_append, List.append_assoc, List.nil_append, List.cons.injEq,
    true_and] at h
  obtain ⟨hs, hrest⟩ := escaped_append_inj h
  exact ⟨String.toList_inj.mp hs, hrest⟩

end Json

end CohortAnalytics
