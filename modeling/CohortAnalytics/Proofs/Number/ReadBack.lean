import CohortAnalytics.Number.Reading
import CohortAnalytics.Proofs.Number.Double
import CohortAnalytics.Proofs.Number.Shortest

/-!
A double is read back from its written form: the digits that are written stand for a number that
rounds to it.
-/

namespace CohortAnalytics

theorem of_isDigit {p : Char → Prop} (h : ∀ n < 10, p (Char.ofNat (48 + n))) {c : Char}
    (hc : c.isDigit) : p c := by
  have hrange : 48 ≤ c.toNat ∧ c.toNat ≤ 57 := Char.isDigit_iff_toNat.mp hc
  have := h (c.toNat - 48) (by omega)
  rwa [show 48 + (c.toNat - 48) = c.toNat by omega, Char.ofNat_toNat] at this

namespace Reading

theorem digitValue?_of_isDigit {c : Char} (h : c.isDigit) : digitValue? c = some (c.toNat - 48) :=
  of_isDigit (p := fun c => digitValue? c = some (c.toNat - 48)) (by decide) h

/-- What ends a run of digits: no digit, and nothing that may stand between two of them. -/
def EndsDigits (rest : List Char) : Prop := ∀ c ∈ rest.head?, digitValue? c = none ∧ c ≠ '_'

theorem digitsFrom_append {ds : List Char} (hds : ∀ c ∈ ds, c.isDigit) {rest : List Char}
    (hrest : EndsDigits rest) (inside : Bool) :
    digitsFrom inside (ds ++ rest) = (ds.map fun c => c.toNat - 48, rest) := by
  induction ds generalizing inside with
  | nil =>
    cases rest with
    | nil => rfl
    | cons c rest =>
      obtain ⟨hnone, hne⟩ := hrest c rfl
      simp [digitsFrom, hnone, hne]
  | cons c ds ih =>
    rw [List.cons_append, digitsFrom, digitValue?_of_isDigit (hds c (by simp))]
    simp only [ih (fun c hc => hds c (List.mem_cons_of_mem _ hc)), List.map_cons]

theorem value_map (ds : List Char) :
    value (ds.map fun c => c.toNat - 48) = Nat.ofDigitChars 10 ds 0 := by
  rw [value, List.foldl_map, Nat.ofDigitChars_eq_foldl]
  rfl

theorem endsDigits_nil : EndsDigits [] := by simp [EndsDigits]

theorem endsDigits_point (rest : List Char) : EndsDigits ('.' :: rest) := by
  rintro c ⟨⟩
  decide

theorem endsDigits_exponent (rest : List Char) : EndsDigits ('e' :: rest) := by
  rintro c ⟨⟩
  decide

theorem unsigned?_whole {ds rest : List Char} {e : ℤ} (hds : ∀ c ∈ ds, c.isDigit) (hne : ds ≠ [])
    (hrest : exponent? ('e' :: rest) = some e) (negative : Bool) :
    unsigned? negative (ds ++ 'e' :: rest) =
      some (Binary.ofDecimal negative (Nat.ofDigitChars 10 ds 0) e) := by
  unfold unsigned?
  rw [digits, digitsFrom_append hds (endsDigits_exponent rest)]
  simp [hne, hrest, value_map]

theorem unsigned?_point {whole fraction rest : List Char} {e : ℤ} (hwhole : ∀ c ∈ whole, c.isDigit)
    (hne : whole ≠ []) (hfraction : ∀ c ∈ fraction, c.isDigit) (hends : EndsDigits rest)
    (hrest : exponent? rest = some e) (negative : Bool) :
    unsigned? negative (whole ++ '.' :: (fraction ++ rest)) =
      some (Binary.ofDecimal negative (Nat.ofDigitChars 10 (whole ++ fraction) 0)
        (e - fraction.length)) := by
  unfold unsigned?
  rw [digits, digitsFrom_append hwhole (endsDigits_point _)]
  simp only [digitsFrom_append hfraction hends, ← List.map_append, value_map]
  simp [hne, hrest]

theorem unsigned?_positional {whole fraction : List Char} (hwhole : ∀ c ∈ whole, c.isDigit)
    (hne : whole ≠ []) (hfraction : ∀ c ∈ fraction, c.isDigit) (negative : Bool) :
    unsigned? negative (whole ++ '.' :: fraction) =
      some (Binary.ofDecimal negative (Nat.ofDigitChars 10 (whole ++ fraction) 0)
        (-(fraction.length : ℤ))) := by
  have := unsigned?_point hwhole hne hfraction endsDigits_nil rfl negative
  rwa [List.append_nil, zero_sub] at this

theorem isDigit_of_mem_zeros {n : ℕ} {c : Char} (h : c ∈ List.replicate n '0') : c.isDigit := by
  rw [List.eq_of_mem_replicate h]
  decide

theorem exponent?_exponent {s : FloatLayout} (hs : s.positiveSign = ['+']) (e : ℤ) :
    ∃ rest, s.exponent e = 'e' :: rest ∧ exponent? ('e' :: rest) = some e := by
  have hdigits : ∀ c ∈ List.replicate (s.exponentWidth - (Nat.toDigits 10 e.natAbs).length) '0' ++
      Nat.toDigits 10 e.natAbs, c.isDigit :=
    List.forall_mem_append.mpr ⟨fun _ => isDigit_of_mem_zeros,
      fun _ => Nat.isDigit_of_mem_toDigits (by omega) (by omega)⟩
  have hread := digitsFrom_append hdigits endsDigits_nil false
  have hvalue := value_map (List.replicate (s.exponentWidth - (Nat.toDigits 10 e.natAbs).length) '0' ++
      Nat.toDigits 10 e.natAbs)
  rw [Nat.ofDigitChars_append, Nat.ofDigitChars_replicate_zero, Nat.mul_zero,
    Nat.ofDigitChars_ten_toDigits] at hvalue
  have hne : Nat.toDigits 10 e.natAbs ≠ [] := Nat.toDigits_ne_nil
  unfold FloatLayout.exponent
  dsimp only
  rw [hs]
  generalize List.replicate (s.exponentWidth - (Nat.toDigits 10 e.natAbs).length) '0' = zeros at *
  generalize Nat.toDigits 10 e.natAbs = ds at *
  rw [List.append_nil] at hread
  refine ⟨_, rfl, ?_⟩
  cases hmap : (zeros ++ ds).map fun c => c.toNat - 48 with
  | nil => simp [hne] at hmap
  | cons v vs =>
    rw [hmap] at hread hvalue
    by_cases he : e < 0
    · simp [exponent?, he, sign, hread, hvalue, -Nat.cast_natAbs]
      omega
    · simp [exponent?, he, sign, hread, hvalue, -Nat.cast_natAbs]
      omega

end Reading

namespace Decimal

/-- Digits that can be laid out. -/
structure IsPlain (d : Decimal) : Prop where
  digits : ∀ c ∈ d.digits, c.isDigit
  nonempty : d.digits ≠ []

end Decimal

theorem ofDigitChars_lt {ds : List Char} (hds : ∀ c ∈ ds, c.isDigit) :
    Nat.ofDigitChars 10 ds 0 < 10 ^ ds.length := by
  induction ds using List.reverseRecOn with
  | nil => simp
  | append_singleton ds c ih =>
    have hc : c.toNat ≤ 57 := by
      have := hds c (by simp)
      rw [Char.isDigit_iff_toNat] at this
      exact this.2
    have := ih fun c hc => hds c (List.mem_append_left _ hc)
    rw [Nat.ofDigitChars_append, Nat.ofDigitChars_cons, Nat.ofDigitChars_nil, List.length_append,
      List.length_singleton, pow_succ]
    have hzero : '0'.toNat = 48 := rfl
    omega

section Layouts

variable {ds : List Char}

theorem unsigned?_far {s : FloatLayout} (hs : s.positiveSign = ['+']) {d : Decimal}
    (hd : d.IsPlain) (hfar : d.point < s.leastPoint ∨ s.greatestPoint < d.point) (negative : Bool) :
    Reading.unsigned? negative (s.layOut d) =
      some (Binary.ofDecimal negative (Nat.ofDigitChars 10 d.digits 0)
        (d.point - d.digits.length)) := by
  obtain ⟨hdigits, hne⟩ := hd
  obtain ⟨rest, hrest, hread⟩ := Reading.exponent?_exponent hs (d.point - 1)
  unfold FloatLayout.layOut
  dsimp only
  rw [if_pos hfar, hrest]
  generalize d.digits = ds at *
  match ds with
  | [] => exact absurd rfl hne
  | [c] => exact Reading.unsigned?_whole hdigits hne hread negative
  | c :: c' :: more =>
    have hfirst : ∀ x ∈ [c], x.isDigit :=
      List.forall_mem_singleton.mpr (hdigits c List.mem_cons_self)
    have hmore : ∀ x ∈ c' :: more, x.isDigit := fun x hx => hdigits x (List.mem_cons_of_mem _ hx)
    have hpoint := Reading.unsigned?_point hfirst (by simp) hmore (Reading.endsDigits_exponent rest)
      hread negative
    rw [sub_sub, add_comm, ← Nat.cast_succ] at hpoint
    exact hpoint

theorem unsigned?_small (hds : ∀ c ∈ ds, c.isDigit) (zeros : ℕ) (negative : Bool) :
    Reading.unsigned? negative ('0' :: '.' :: List.replicate zeros '0' ++ ds) =
      some (Binary.ofDecimal negative (Nat.ofDigitChars 10 ds 0)
        (-((zeros + ds.length : ℕ) : ℤ))) := by
  have hfraction : ∀ c ∈ List.replicate zeros '0' ++ ds, c.isDigit :=
    List.forall_mem_append.mpr ⟨fun _ => Reading.isDigit_of_mem_zeros, hds⟩
  have hread := @Reading.unsigned?_positional ['0'] _ (List.forall_mem_singleton.mpr rfl)
    (by simp) hfraction negative
  have hvalue : Nat.ofDigitChars 10 (['0'] ++ (List.replicate zeros '0' ++ ds)) 0 =
      Nat.ofDigitChars 10 ds 0 := by
    rw [Nat.ofDigitChars_append, Nat.ofDigitChars_append]
    simp [Nat.ofDigitChars_cons, Nat.ofDigitChars_replicate_zero]
  rw [hvalue, List.length_append, List.length_replicate] at hread
  exact hread

theorem unsigned?_large (hds : ∀ c ∈ ds, c.isDigit) (hne : ds ≠ []) (zeros : ℕ)
    (negative : Bool) :
    Reading.unsigned? negative (ds ++ List.replicate zeros '0' ++ ['.', '0']) =
      some (Binary.ofDecimal negative (Nat.ofDigitChars 10 ds 0 * 10 ^ (zeros + 1)) (-1)) := by
  have hwhole : ∀ c ∈ ds ++ List.replicate zeros '0', c.isDigit :=
    List.forall_mem_append.mpr ⟨hds, fun _ => Reading.isDigit_of_mem_zeros⟩
  have hread := @Reading.unsigned?_positional _ ['0'] hwhole (by simp [hne])
    (List.forall_mem_singleton.mpr rfl) negative
  have hvalue : Nat.ofDigitChars 10 (ds ++ List.replicate zeros '0' ++ ['0']) 0 =
      Nat.ofDigitChars 10 ds 0 * 10 ^ (zeros + 1) := by
    rw [List.append_assoc, ← List.replicate_succ', Decimal.ofDigitChars_append_zeros]
  rw [hvalue] at hread
  exact hread

theorem unsigned?_parted (hds : ∀ c ∈ ds, c.isDigit) (hne : ds ≠ []) {n : ℕ} (hn : 0 < n)
    (negative : Bool) :
    Reading.unsigned? negative (ds.take n ++ '.' :: ds.drop n) =
      some (Binary.ofDecimal negative (Nat.ofDigitChars 10 ds 0)
        (-((ds.length - n : ℕ) : ℤ))) := by
  have hfirst : ds.take n ≠ [] := by
    rw [Ne, List.take_eq_nil_iff, not_or]
    exact ⟨hn.ne', hne⟩
  have hread := @Reading.unsigned?_positional _ (ds.drop n)
    (fun c hc => hds c (List.mem_of_mem_take hc)) hfirst
    (fun c hc => hds c (List.mem_of_mem_drop hc)) negative
  rw [List.take_append_drop, List.length_drop] at hread
  exact hread

end Layouts

/-- A number laid out reads as digits times a power of ten that have its value. -/
theorem unsigned?_layOut {s : FloatLayout} (hs : s.positiveSign = ['+']) {d : Decimal}
    (hd : d.IsPlain) (negative : Bool) : ∃ (n : ℕ) (e : ℤ),
      Reading.unsigned? negative (s.layOut d) = some (Binary.ofDecimal negative n e) ∧
        (n : ℚ) * 10 ^ e = d.value ∧ n < 10 ^ (d.digits.length + s.greatestPoint.toNat + 1) := by
  have hdigits := hd.digits
  have hne := hd.nonempty
  have hlt := ofDigitChars_lt hdigits
  have hbound (n : ℕ) (hn : n ≤ s.greatestPoint.toNat + 1) : Nat.ofDigitChars 10 d.digits 0 * 10 ^ n <
      10 ^ (d.digits.length + s.greatestPoint.toNat + 1) := by
    calc _ < 10 ^ d.digits.length * 10 ^ n := by gcongr
      _ = 10 ^ (d.digits.length + n) := (pow_add _ _ _).symm
      _ ≤ _ := Nat.pow_le_pow_right (by omega) (by omega)
  have hdirect := hbound 0 (by omega)
  rw [pow_zero, Nat.mul_one] at hdirect
  by_cases hfar : d.point < s.leastPoint ∨ s.greatestPoint < d.point
  · exact ⟨_, _, unsigned?_far hs hd hfar negative, rfl, hdirect⟩
  unfold FloatLayout.layOut Decimal.value
  dsimp only
  rw [if_neg hfar]
  split_ifs with hsmall hwhole
  · refine ⟨_, _, unsigned?_small hdigits _ negative, ?_, hdirect⟩
    congr 2
    omega
  · refine ⟨_, _, unsigned?_large hdigits hne _ negative, ?_, hbound _ (by omega)⟩
    push_cast
    rw [mul_assoc, ← zpow_natCast, ← zpow_add₀ (by norm_num)]
    congr 2
    omega
  · refine ⟨_, _, unsigned?_parted hdigits hne (by omega) negative, ?_, hdirect⟩
    congr 2
    omega

namespace Binary

theorem range_powers : 2 * 2 ^ 1024 < 10 ^ 309 ∧ 10 ^ 38 * 2 ^ 1075 < 10 ^ 363 := by
  decide +kernel

theorem ofDecimal_eq {x : Float} {b : Binary} (h : ofFloat? x = some b) (hm : 0 < b.mantissa) {n : ℕ}
    {e : ℤ} (hn : n < 10 ^ 38) (hround : b.Rounds (n * 10 ^ e)) : ofDecimal b.negative n e = x := by
  have hb := isDouble_of_ofFloat? h
  obtain ⟨hbelow, habove⟩ := hround.range hm
  have hpos : 0 < n := by
    by_contra hzero
    rw [show n = 0 by omega, Nat.cast_zero, zero_mul] at hbelow
    exact absurd hbelow (not_le.mpr (by positivity))
  have hone : (1 : ℚ) ≤ n := by exact_mod_cast hpos
  have hlog : n.log2 < 128 := (Nat.log2_lt hpos.ne').mpr (hn.trans (by norm_num))
  have hlow : (2 : ℚ) ^ (-1075 : ℤ) ≤ n * 10 ^ e :=
    (zpow_le_zpow_right₀ (by norm_num) (by linarith [hb.exponent_ge])).trans hbelow
  have hhigh : (n : ℚ) * 10 ^ e < 2 * 2 ^ (1024 : ℤ) := by
    linarith [(hb.range hm).2]
  have hleast : -363 < e := by
    by_contra hsmall
    have hvalue : (n : ℚ) * 10 ^ e < 10 ^ 38 * 10 ^ (-363 : ℤ) := by
      have hn' : (n : ℚ) < 10 ^ 38 := by exact_mod_cast hn
      have he : (10 : ℚ) ^ e ≤ 10 ^ (-363 : ℤ) := zpow_le_zpow_right₀ (by norm_num) (by omega)
      calc (n : ℚ) * 10 ^ e ≤ n * 10 ^ (-363 : ℤ) := by gcongr
        _ < _ := by gcongr
    have hpowers : (10 : ℚ) ^ 38 * 2 ^ 1075 < 10 ^ 363 := by exact_mod_cast range_powers.2
    have hscaled := hlow.trans_lt hvalue
    rw [zpow_neg, zpow_neg, ← div_eq_mul_inv, inv_lt_iff_one_lt_mul₀ (by positivity),
      div_mul_eq_mul_div, one_lt_div (by positivity)] at hscaled
    exact absurd hpowers (not_lt.mpr hscaled.le)
  have hgreatest : e < 309 := by
    by_contra hlarge
    have he : (10 : ℚ) ^ (309 : ℤ) ≤ 10 ^ e := zpow_le_zpow_right₀ (by norm_num) (by omega)
    have hvalue : (10 : ℚ) ^ (309 : ℤ) ≤ n * 10 ^ e :=
      calc (10 : ℚ) ^ (309 : ℤ) ≤ 1 * 10 ^ e := by rwa [one_mul]
        _ ≤ _ := by gcongr
    have hpowers : (2 : ℚ) * 2 ^ 1024 < 10 ^ 309 := by exact_mod_cast range_powers.1
    exact absurd hpowers (not_lt.mpr (by exact_mod_cast (hvalue.trans_lt hhigh).le))
  unfold ofDecimal
  dsimp only
  rw [if_neg (by omega), if_neg (by omega)]
  refine ofQuotient_eq h (by positivity) (by positivity) ?_
  have hvalue : ((n * 10 ^ e.toNat : ℕ) : ℚ) / (10 ^ (-e).toNat : ℕ) = n * 10 ^ e := by
    have := zpow_eq_div 10 (by omega) e
    push_cast at this ⊢
    rw [this]
    ring
  rwa [hvalue]

end Binary

namespace Decimal

theorem shortest_isPlain {b : Binary} (hb : b.IsDouble) (hm : 0 < b.mantissa) :
    (shortest b).IsPlain ∧ b.Rounds (shortest b).value ∧ (shortest b).digits.length ≤ 21 := by
  obtain ⟨n, k, hgrid, hround, hn⟩ := shortest_spec hb hm
  rw [hgrid, ofGrid_value]
  refine ⟨⟨fun c hc => ofGrid_digits n k hc, fun hempty => ?_⟩, hround,
    ofGrid_digits_length (by omega) hn k⟩
  have hvalue := ofGrid_value n k
  rw [value, hempty, Nat.ofDigitChars_nil, Nat.cast_zero, zero_mul] at hvalue
  have hlow := (hround.range hm).1
  rw [← hvalue] at hlow
  exact absurd hlow (not_le.mpr (by positivity))

end Decimal

def isNumeral (c : Char) : Bool := c.isDigit || c == '.' || c == 'e' || c == '-' || c == '+'

namespace FloatLayout

theorem isNumeral_of_mem_exponent {s : FloatLayout} (hs : s.positiveSign = ['+']) {e : ℤ} {c : Char}
    (hc : c ∈ s.exponent e) : isNumeral c := by
  simp only [exponent, hs, List.cons_append, List.mem_cons, List.mem_append, List.mem_replicate] at hc
  rcases hc with rfl | (hsign | ⟨-, rfl⟩) | hdigit
  · decide
  · split_ifs at hsign
    all_goals
      obtain rfl := List.mem_singleton.mp hsign
      decide
  · decide
  · simp [isNumeral, Nat.isDigit_of_mem_toDigits (by omega) (by omega) hdigit]

theorem layOut_shape {s : FloatLayout} (hs : s.positiveSign = ['+']) {d : Decimal} (hd : d.IsPlain) :
    (∃ c rest, s.layOut d = c :: rest ∧ c.isDigit) ∧ (∀ c ∈ s.layOut d, isNumeral c) ∧
      ('.' ∈ s.layOut d ∨ 'e' ∈ s.layOut d) := by
  obtain ⟨hdigits, hne⟩ := hd
  have hnumeral {c : Char} (hc : c ∈ d.digits) : isNumeral c := by simp [isNumeral, hdigits c hc]
  have hexponent {e : ℤ} {c : Char} (hc : c ∈ s.exponent e) := isNumeral_of_mem_exponent hs hc
  have hpoint : isNumeral '.' := by decide
  have hzero : isNumeral '0' := by decide
  have hmark {e : ℤ} : 'e' ∈ s.exponent e := by simp [exponent]
  obtain ⟨c, rest, hcons⟩ := List.exists_cons_of_ne_nil hne
  have hfirst : c.isDigit := hdigits c (by simp [hcons])
  unfold layOut
  dsimp only
  split_ifs with hfar hsmall hwhole
  · rw [hcons] at hnumeral ⊢
    cases rest with
    | nil =>
      refine ⟨⟨c, _, rfl, hfirst⟩, ?_, .inr (List.mem_cons_of_mem _ hmark)⟩
      simpa using ⟨hnumeral (by simp), fun c hc => hexponent hc⟩
    | cons c' more =>
      refine ⟨⟨c, _, rfl, hfirst⟩, ?_, .inl (by simp)⟩
      intro x hx
      simp only [List.cons_append, List.mem_cons, List.mem_append] at hx
      rcases hx with rfl | rfl | rfl | hx | hx
      · exact hnumeral (by simp)
      · exact hpoint
      · exact hnumeral (by simp)
      · exact hnumeral (by simp [hx])
      · exact hexponent hx
  · refine ⟨⟨'0', _, rfl, by decide⟩, ?_, .inl (by simp)⟩
    intro x hx
    simp only [List.cons_append, List.mem_cons, List.mem_append, List.mem_replicate] at hx
    rcases hx with rfl | rfl | ⟨-, rfl⟩ | hx
    · exact hzero
    · exact hpoint
    · exact hzero
    · exact hnumeral hx
  · refine ⟨⟨c, _, by rw [hcons]; rfl, hfirst⟩, ?_, .inl (by simp)⟩
    intro x hx
    simp only [List.mem_append, List.mem_cons, List.not_mem_nil, or_false, List.mem_replicate] at hx
    rcases hx with (hx | ⟨-, rfl⟩) | rfl | rfl
    · exact hnumeral hx
    · exact hzero
    · exact hpoint
    · exact hzero
  · refine ⟨⟨c, rest.take (d.point.toNat - 1) ++ '.' :: d.digits.drop d.point.toNat, ?_, hfirst⟩, ?_,
      .inl (by simp)⟩
    · rw [hcons, List.take_cons (by omega)]
      rfl
    · intro x hx
      simp only [List.mem_append, List.mem_cons] at hx
      rcases hx with hx | rfl | hx
      · exact hnumeral (List.mem_of_mem_take hx)
      · exact hpoint
      · exact hnumeral (List.mem_of_mem_drop hx)

theorem write_shape {s : FloatLayout} (hs : s.positiveSign = ['+']) {x : Float} {b : Binary}
    (h : Binary.ofFloat? x = some b) :
    (∃ c rest, s.write x = c :: rest ∧ (c.isDigit ∨ c = '-')) ∧ (∀ c ∈ s.write x, isNumeral c) ∧
      ('.' ∈ s.write x ∨ 'e' ∈ s.write x) := by
  obtain ⟨⟨c, rest, hcons, hc⟩, hnumeral, hmark⟩ :
      (∃ c rest, (if b.mantissa = 0 then ['0', '.', '0'] else s.layOut (Decimal.shortest b)) =
        c :: rest ∧ c.isDigit) ∧
      (∀ c ∈ (if b.mantissa = 0 then ['0', '.', '0'] else s.layOut (Decimal.shortest b)),
        isNumeral c) ∧
      ('.' ∈ (if b.mantissa = 0 then ['0', '.', '0'] else s.layOut (Decimal.shortest b)) ∨
        'e' ∈ (if b.mantissa = 0 then ['0', '.', '0'] else s.layOut (Decimal.shortest b))) := by
    split_ifs with hm
    · exact ⟨⟨'0', _, rfl, by decide⟩, List.all_eq_true.mp (by decide), .inl (by decide)⟩
    · have hb := Binary.isDouble_of_ofFloat? h
      exact layOut_shape hs (Decimal.shortest_isPlain hb (Nat.pos_of_ne_zero hm)).1
  unfold write
  rw [h]
  dsimp only
  generalize (if b.mantissa = 0 then ['0', '.', '0'] else s.layOut (Decimal.shortest b)) = digits at *
  refine ⟨?_, ?_, hmark.imp (List.mem_append_right _) (List.mem_append_right _)⟩
  · cases b.negative with
    | true => exact ⟨'-', _, rfl, .inr rfl⟩
    | false => exact ⟨c, rest, hcons, .inl hc⟩
  · intro x hx
    rcases List.mem_append.mp hx with hx | hx
    · split_ifs at hx
      · rw [List.mem_singleton.mp hx]
        decide
      · exact absurd hx List.not_mem_nil
    · exact hnumeral x hx

/-- What a layout needs for its texts to be read back. -/
structure IsReadable (s : FloatLayout) : Prop where
  positiveSign : s.positiveSign = ['+']
  greatestPoint : s.greatestPoint ≤ 16
  notANumber : s.notANumber = "nan" ∨ s.notANumber = "NaN"
  infinite : s.infinite = "inf" ∨ s.infinite = "Infinity"

end FloatLayout

theorem isBlank_of_isNumeral {c : Char} (h : isNumeral c) : isBlank c = false := by
  simp only [isNumeral, Bool.or_eq_true, beq_iff_eq] at h
  rcases h with (((hdigit | rfl) | rfl) | rfl) | rfl
  · exact of_isDigit (p := fun c => isBlank c = false) (by decide) hdigit
  all_goals decide

theorem dropWhile_isBlank {cs : List Char} (h : ∀ c ∈ cs, isBlank c = false) :
    cs.dropWhile isBlank = cs := by
  cases cs with
  | nil => rfl
  | cons c rest => rw [List.dropWhile_cons_of_neg (by simp [h c (by simp)])]

theorem trimBlank_eq_self {cs : List Char} (h : ∀ c ∈ cs, isBlank c = false) : trimBlank cs = cs := by
  rw [trimBlank, dropWhile_isBlank h, dropWhile_isBlank (fun c hc => h c (List.mem_reverse.mp hc)),
    List.reverse_reverse]

theorem trimBlank_append {before cs after : List Char} (hbefore : ∀ c ∈ before, isBlank c = true)
    (hcs : ∀ c ∈ cs, isBlank c = false) (hafter : ∀ c ∈ after, isBlank c = true) :
    trimBlank (before ++ (cs ++ after)) = cs := by
  rw [trimBlank, List.dropWhile_append_of_pos hbefore]
  cases cs with
  | nil =>
    rw [List.nil_append, List.dropWhile_eq_nil_iff.mpr hafter]
    rfl
  | cons c rest =>
    have hreverse : ∀ c ∈ after.reverse, isBlank c = true :=
      fun c hc => hafter c (List.mem_reverse.mp hc)
    rw [List.cons_append, List.dropWhile_cons_of_neg (by simp [hcs c (by simp)]), ← List.cons_append,
      List.reverse_append, List.dropWhile_append_of_pos hreverse,
      dropWhile_isBlank fun c hc => hcs c (List.mem_reverse.mp hc), List.reverse_reverse]

theorem Reading.named?_of_isDigit {c : Char} {rest : List Char} (h : c.isDigit) :
    named? (c :: rest) = none := by
  have hlower : c.toLower = c := of_isDigit (p := fun c => c.toLower = c) (by decide) h
  have hne (c' : Char) (more : List Char) (hc' : ¬c'.isDigit) :
      String.ofList ((c :: rest).map Char.toLower) ≠ String.ofList (c' :: more) := by
    intro heq
    rw [String.ofList_inj, List.map_cons, hlower, List.cons.injEq] at heq
    exact hc' (heq.1 ▸ h)
  unfold named?
  dsimp only
  rw [if_neg, if_neg]
  · exact hne 'n' ['a', 'n'] (by decide)
  · rw [not_or]
    exact ⟨hne 'i' ['n', 'f'] (by decide), hne 'i' ['n', 'f', 'i', 'n', 'i', 't', 'y'] (by decide)⟩

theorem readFloat?_signed {c : Char} {rest : List Char} (hc : c.isDigit)
    (hrest : ∀ x ∈ c :: rest, isNumeral x) (negative : Bool) :
    readFloat? (String.ofList ((if negative then ['-'] else []) ++ c :: rest)) =
      Reading.unsigned? negative (c :: rest) := by
  have htrim : trimBlank ((if negative then ['-'] else []) ++ c :: rest) =
      (if negative then ['-'] else []) ++ c :: rest := by
    apply trimBlank_eq_self
    intro x hx
    rcases List.mem_append.mp hx with hx | hx
    · split_ifs at hx
      · rw [List.mem_singleton.mp hx]
        decide
      · exact absurd hx List.not_mem_nil
    · exact isBlank_of_isNumeral (hrest x hx)
  have hsign : Reading.sign ((if negative then ['-'] else []) ++ c :: rest) = (negative, c :: rest) := by
    cases negative with
    | true => rfl
    | false =>
      have hplus : c ≠ '+' := by
        rintro rfl
        exact absurd hc (by decide)
      have hminus : c ≠ '-' := by
        rintro rfl
        exact absurd hc (by decide)
      simp [Reading.sign, hplus, hminus]
  unfold readFloat?
  rw [String.toList_ofList, htrim, hsign]
  dsimp only
  rw [Reading.named?_of_isDigit hc]

/-- Every double is read back from its text, the sign of a zero included. -/
theorem readFloat?_write {s : FloatLayout} (hs : s.IsReadable) (x : Float) :
    readFloat? (String.ofList (s.write x)) = some x := by
  obtain ⟨hsign, hpoint, hnan, hinf⟩ := hs
  unfold FloatLayout.write
  cases h : Binary.ofFloat? x with
  | none =>
    dsimp only
    rcases special_of_ofFloat?_none h with ⟨hn, rfl⟩ | ⟨hn, hlt, rfl⟩ | ⟨hn, hlt, rfl⟩
    · rw [if_pos hn]
      rcases hnan with hname | hname <;> rw [hname] <;> rfl
    · rw [hn, if_neg Bool.false_ne_true, if_pos hlt]
      rcases hinf with hname | hname <;> rw [hname] <;> rfl
    · rw [hn, if_neg Bool.false_ne_true, if_neg hlt]
      rcases hinf with hname | hname <;> rw [hname] <;> rfl
  | some b =>
    dsimp only
    by_cases hm : b.mantissa = 0
    · rw [if_pos hm, readFloat?_signed (by decide) (List.all_eq_true.mp (by decide)),
        ← Binary.ofQuotient_zero h hm]
      rfl
    · have hb := Binary.isDouble_of_ofFloat? h
      have hm' := Nat.pos_of_ne_zero hm
      obtain ⟨hplain, hround, hlength⟩ := Decimal.shortest_isPlain hb hm'
      obtain ⟨⟨c, rest, hcons, hc⟩, hnumeral, -⟩ := FloatLayout.layOut_shape hsign hplain
      obtain ⟨n, e, hread, hvalue, hn⟩ := unsigned?_layOut hsign hplain b.negative
      rw [if_neg hm, hcons, readFloat?_signed hc (hcons ▸ hnumeral), ← hcons, hread,
        Binary.ofDecimal_eq h hm' _ (hvalue ▸ hround)]
      calc n < 10 ^ ((Decimal.shortest b).digits.length + s.greatestPoint.toNat + 1) := hn
        _ ≤ 10 ^ 38 := Nat.pow_le_pow_right (by omega) (by omega)

end CohortAnalytics
