import CohortAnalytics.Proofs.Json.Quoting
import CohortAnalytics.Proofs.Number.ReadBack

/-!
JSON text is uniquely readable: a value followed by a separator, a bracket or nothing is the only
value in front of it.
-/

namespace CohortAnalytics

theorem intText_toList (n : ℤ) :
    (toString n).toList = (if n < 0 then ['-'] else []) ++ Nat.toDigits 10 n.natAbs := by
  cases n with
  | ofNat n =>
    rw [if_neg (by exact Int.not_lt.mpr (Int.natCast_nonneg n))]
    exact Nat.toList_repr
  | negSucc n =>
    rw [if_pos (Int.negSucc_lt_zero n)]
    change ("-" ++ (n + 1).repr).toList = _
    rw [String.toList_append, Nat.toList_repr]
    rfl

theorem intText_inj {m n : ℤ} (h : (toString m).toList = (toString n).toList) : m = n := by
  have habs {m n : ℕ} (h : Nat.toDigits 10 m = Nat.toDigits 10 n) : m = n := by
    have := congrArg (Nat.ofDigitChars 10 · 0) h
    simpa only [Nat.ofDigitChars_ten_toDigits] using this
  have hminus (n : ℕ) (rest : List Char) : Nat.toDigits 10 n ≠ '-' :: rest := by
    intro hcons
    have := Nat.isDigit_of_mem_toDigits (by omega) (by omega) (n := n) (b := 10) (c := '-')
      (by simp [hcons])
    exact absurd this (by decide)
  rw [intText_toList, intText_toList] at h
  split_ifs at h with hm hn hn
  · have := habs (List.cons.inj h).2
    omega
  · exact absurd h.symm (hminus _ _)
  · exact absurd h (hminus _ _)
  · have := habs h
    omega

namespace Json

/-- What may follow a value inside a text. -/
def isStop (c : Char) : Bool := c == ',' || c == ':' || c == ']' || c == '}'

def Stops (rest : List Char) : Prop := ∀ c ∈ rest.head?, isStop c

theorem not_isStop_of_all {cs : List Char} (h : cs.all (!isStop ·)) : ∀ c ∈ cs, ¬isStop c := by
  simpa using h

theorem stops_nil : Stops [] := by simp [Stops]

theorem stops_cons {c : Char} (h : isStop c) (rest : List Char) : Stops (c :: rest) := by
  rintro x ⟨⟩
  exact h

theorem token_append_inj {xs ys rest more : List Char} (hx : ∀ c ∈ xs, ¬isStop c)
    (hy : ∀ c ∈ ys, ¬isStop c) (hrest : Stops rest) (hmore : Stops more)
    (h : xs ++ rest = ys ++ more) : xs = ys ∧ rest = more := by
  induction xs generalizing ys with
  | nil =>
    cases ys with
    | nil => exact ⟨rfl, h⟩
    | cons y ys =>
      obtain rfl : rest = y :: (ys ++ more) := h
      exact absurd (hrest y rfl) (hy y (by simp))
  | cons x xs ih =>
    cases ys with
    | nil =>
      obtain rfl : x :: (xs ++ rest) = more := h
      exact absurd (hmore x rfl) (hx x (by simp))
    | cons y ys =>
      obtain ⟨rfl, htail⟩ := List.cons.inj h
      obtain ⟨rfl, hrest⟩ := ih (fun c hc => hx c (List.mem_cons_of_mem _ hc))
        (fun c hc => hy c (List.mem_cons_of_mem _ hc)) htail
      exact ⟨rfl, hrest⟩

theorem not_isStop_of_isNumeral {c : Char} (h : isNumeral c) : ¬isStop c := by
  simp only [isStop, Bool.or_eq_true, beq_iff_eq, not_or]
  refine ⟨⟨⟨?_, ?_⟩, ?_⟩, ?_⟩ <;> rintro rfl <;> exact absurd h (by decide)

/-- The kinds of values, which the first character of a text tells apart. -/
inductive Kind
  | null
  | truth
  | number
  | text
  | array
  | object
  deriving DecidableEq

def kind : Json → Kind
  | .null => .null
  | .bool _ => .truth
  | .number _ => .number
  | .text _ => .text
  | .array _ => .array
  | .object _ => .object

def kindOf? (c : Char) : Option Kind :=
  if c = 'n' then some .null
  else if c = 't' ∨ c = 'f' then some .truth
  else if c = '"' then some .text
  else if c = '[' then some .array
  else if c = '{' then some .object
  else if isStop c then none
  else some .number

theorem kindOf?_of_isDigit {c : Char} (h : c.isDigit) : kindOf? c = some .number :=
  of_isDigit (p := fun c => kindOf? c = some .number) (by decide) h

theorem writeFloat_spec (x : Float) : (∀ c ∈ numberLayout.write x, ¬isStop c) ∧
    (∃ c ∈ numberLayout.write x, ¬c.isDigit ∧ c ≠ '-') ∧
      ∃ c rest, numberLayout.write x = c :: rest ∧ kindOf? c = some .number := by
  cases h : Binary.ofFloat? x with
  | none =>
    unfold FloatLayout.write
    rw [h]
    dsimp only
    split_ifs
    · exact ⟨not_isStop_of_all (by decide), ⟨'N', by decide, by decide⟩, 'N', _, rfl, by decide⟩
    · exact ⟨not_isStop_of_all (by decide), ⟨'I', by decide, by decide⟩, '-', _, rfl, by decide⟩
    · exact ⟨not_isStop_of_all (by decide), ⟨'I', by decide, by decide⟩, 'I', _, rfl, by decide⟩
  | some b =>
    obtain ⟨⟨c, rest, hcons, hc⟩, hnumeral, hmark⟩ := numberLayout.write_shape rfl h
    refine ⟨fun c hc => not_isStop_of_isNumeral (hnumeral c hc), ?_, c, rest, hcons, ?_⟩
    · rcases hmark with hpoint | hexponent
      · exact ⟨'.', hpoint, by decide, by decide⟩
      · exact ⟨'e', hexponent, by decide, by decide⟩
    · rcases hc with hc | rfl
      · exact kindOf?_of_isDigit hc
      · decide

theorem writeInt_spec (n : ℤ) : (∀ c ∈ (toString n).toList, c.isDigit ∨ c = '-') ∧
    ∃ c rest, (toString n).toList = c :: rest ∧ kindOf? c = some .number := by
  have hdigit {c : Char} (hc : c ∈ Nat.toDigits 10 n.natAbs) : c.isDigit :=
    Nat.isDigit_of_mem_toDigits (by omega) (by omega) hc
  obtain ⟨c, rest, hcons⟩ := List.exists_cons_of_ne_nil (Nat.toDigits_ne_nil (n := n.natAbs) (b := 10))
  rw [intText_toList]
  split_ifs
  · refine ⟨fun c hc => ?_, '-', _, rfl, by decide⟩
    rcases List.mem_cons.mp hc with rfl | hc
    · exact .inr rfl
    · exact .inl (hdigit hc)
  · exact ⟨fun c hc => .inl (hdigit hc), c, rest, hcons,
      kindOf?_of_isDigit (hdigit (by simp [hcons]))⟩

theorem writeNumber_spec (n : Number) : (∀ c ∈ writeNumber n, ¬isStop c) ∧
    ∃ c rest, writeNumber n = c :: rest ∧ kindOf? c = some .number := by
  cases n with
  | int n =>
    obtain ⟨hchars, hstart⟩ := writeInt_spec n
    refine ⟨fun c hc => ?_, hstart⟩
    rcases hchars c hc with hdigit | rfl
    · exact not_isStop_of_isNumeral (by simp [isNumeral, hdigit])
    · decide
  | float x => exact ⟨(writeFloat_spec x).1, (writeFloat_spec x).2.2⟩

theorem numberLayout_isReadable : numberLayout.IsReadable :=
  ⟨rfl, by decide, .inr rfl, .inr rfl⟩

/-- Numbers of one text are the same, also in being whole or not. -/
theorem writeNumber_inj {m n : Number} (h : writeNumber m = writeNumber n) : m = n := by
  have hmixed (i : ℤ) (x : Float) : (toString i).toList ≠ numberLayout.write x := by
    intro heq
    obtain ⟨-, ⟨c, hc, hdigit, hminus⟩, -⟩ := writeFloat_spec x
    rcases (writeInt_spec i).1 c (heq ▸ hc) with h | h
    · exact hdigit h
    · exact hminus h
  cases m with
  | int i =>
    cases n with
    | int j => exact congrArg Number.int (intText_inj h)
    | float y => exact absurd h (hmixed i y)
  | float x =>
    cases n with
    | int j => exact absurd h.symm (hmixed j x)
    | float y =>
      have hx := readFloat?_write numberLayout_isReadable x
      have hy := readFloat?_write numberLayout_isReadable y
      rw [show numberLayout.write x = numberLayout.write y from h, hy] at hx
      exact congrArg Number.float (Option.some.inj hx).symm

theorem write_start (g : Gaps) (v : Json) :
    ∃ c rest, write g v = c :: rest ∧ kindOf? c = some v.kind := by
  cases v with
  | null => exact ⟨'n', _, by rw [write]; rfl, by decide⟩
  | bool b =>
    cases b with
    | true => exact ⟨'t', _, by rw [write]; rfl, by decide⟩
    | false => exact ⟨'f', _, by rw [write]; rfl, by decide⟩
  | number n =>
    rw [write]
    exact (writeNumber_spec n).2
  | text s => exact ⟨'"', _, by rw [write, quote, List.cons_append], rfl⟩
  | array items => exact ⟨'[', _, by rw [write, List.cons_append], rfl⟩
  | object members => exact ⟨'{', _, by rw [write, List.cons_append], rfl⟩

theorem write_append_ne_stop {g : Gaps} {v : Json} {rest more : List Char} {c : Char}
    (hc : isStop c) : write g v ++ rest ≠ c :: more := by
  intro h
  obtain ⟨c', tail, hcons, hkind⟩ := write_start g v
  rw [hcons] at h
  obtain rfl := (List.cons.inj h).1
  have hnone : kindOf? c' = none := by
    simp only [isStop, Bool.or_eq_true, beq_iff_eq] at hc
    rcases hc with ((rfl | rfl) | rfl) | rfl <;> rfl
  simp [hnone] at hkind

def itemsAfter (g : Gaps) (items : List Json) (rest : List Char) : List Char :=
  match items with
  | [] => ']' :: rest
  | _ => ',' :: (g.item ++ (writeItems g items ++ ']' :: rest))

def membersAfter (g : Gaps) (members : List (String × Json)) (rest : List Char) : List Char :=
  match members with
  | [] => '}' :: rest
  | _ => ',' :: (g.item ++ (writeMembers g members ++ '}' :: rest))

theorem stops_itemsAfter (g : Gaps) (items : List Json) (rest : List Char) :
    Stops (itemsAfter g items rest) := by
  cases items <;> exact stops_cons (by decide) _

theorem stops_membersAfter (g : Gaps) (members : List (String × Json)) (rest : List Char) :
    Stops (membersAfter g members rest) := by
  cases members <;> exact stops_cons (by decide) _

theorem writeItems_cons_append (g : Gaps) (v : Json) (items : List Json) (rest : List Char) :
    writeItems g (v :: items) ++ ']' :: rest = write g v ++ itemsAfter g items rest := by
  cases items with
  | nil => rw [writeItems, itemsAfter]
  | cons w items =>
    rw [writeItems, itemsAfter] <;> simp

theorem writeMembers_cons_append (g : Gaps) (n : String) (v : Json)
    (members : List (String × Json)) (rest : List Char) :
    writeMembers g ((n, v) :: members) ++ '}' :: rest =
      quote n ++ ':' :: (g.value ++ (write g v ++ membersAfter g members rest)) := by
  cases members with
  | nil =>
    rw [writeMembers, membersAfter]
    simp
  | cons w members =>
    rw [writeMembers, membersAfter] <;> simp

mutual

/-- A value in front of a stop is determined by the text, and so is what follows it. -/
theorem write_append_inj (g : Gaps) (v w : Json) {rest more : List Char} (hrest : Stops rest)
    (hmore : Stops more) (h : write g v ++ rest = write g w ++ more) : v = w ∧ rest = more := by
  have hkind : v.kind = w.kind := by
    obtain ⟨c, tail, hc, hv⟩ := write_start g v
    obtain ⟨c', tail', hc', hw⟩ := write_start g w
    rw [hc, hc'] at h
    obtain rfl := (List.cons.inj h).1
    exact Option.some.inj (hv.symm.trans hw)
  -- Only values of one kind are left to compare.
  cases v with
  | null =>
    cases w with
    | null => exact ⟨rfl, List.append_cancel_left h⟩
    | _ => exact Kind.noConfusion hkind
  | bool b =>
    cases w with
    | bool b' =>
      have hbare (b : Bool) : ∀ c ∈ write g (.bool b), ¬isStop c := by
        cases b <;> rw [write] <;> exact not_isStop_of_all (by decide)
      obtain ⟨htext, hrest⟩ := token_append_inj (hbare b) (hbare b') hrest hmore h
      refine ⟨?_, hrest⟩
      cases b <;> cases b' <;> first | rfl | exact absurd htext (by rw [write, write]; decide)
    | _ => exact Kind.noConfusion hkind
  | number n =>
    cases w with
    | number n' =>
      rw [write, write] at h
      obtain ⟨htext, hrest⟩ :=
        token_append_inj (writeNumber_spec n).1 (writeNumber_spec n').1 hrest hmore h
      exact ⟨congrArg Json.number (writeNumber_inj htext), hrest⟩
    | _ => exact Kind.noConfusion hkind
  | text s =>
    cases w with
    | text s' =>
      rw [write, write] at h
      obtain ⟨htext, hrest⟩ := quote_append_inj h
      exact ⟨congrArg Json.text htext, hrest⟩
    | _ => exact Kind.noConfusion hkind
  | array items =>
    cases w with
    | array items' =>
      rw [write, write] at h
      simp only [List.cons_append, List.append_assoc, List.cons.injEq, true_and,
        List.nil_append] at h
      obtain ⟨hitems, hrest⟩ := writeItems_append_inj g items items' h
      exact ⟨congrArg Json.array hitems, hrest⟩
    | _ => exact Kind.noConfusion hkind
  | object members =>
    cases w with
    | object members' =>
      rw [write, write] at h
      simp only [List.cons_append, List.append_assoc, List.cons.injEq, true_and,
        List.nil_append] at h
      obtain ⟨hmembers, hrest⟩ := writeMembers_append_inj g members members' h
      exact ⟨congrArg Json.object hmembers, hrest⟩
    | _ => exact Kind.noConfusion hkind

theorem writeItems_append_inj (g : Gaps) (vs ws : List Json) {rest more : List Char}
    (h : writeItems g vs ++ ']' :: rest = writeItems g ws ++ ']' :: more) :
    vs = ws ∧ rest = more := by
  match vs, ws with
  | [], [] => exact ⟨rfl, (List.cons.inj (List.append_cancel_left h)).2⟩
  | [], w :: ws =>
    rw [writeItems_cons_append] at h
    exact absurd h.symm (write_append_ne_stop (by decide))
  | v :: vs, [] =>
    rw [writeItems_cons_append] at h
    exact absurd h (write_append_ne_stop (by decide))
  | v :: vs, w :: ws =>
    rw [writeItems_cons_append, writeItems_cons_append] at h
    obtain ⟨rfl, htail⟩ :=
      write_append_inj g v w (stops_itemsAfter g vs rest) (stops_itemsAfter g ws more) h
    match vs, ws with
    | [], [] => exact ⟨rfl, (List.cons.inj htail).2⟩
    | [], _ :: _ => exact absurd (List.cons.inj htail).1 (by decide)
    | _ :: _, [] => exact absurd (List.cons.inj htail).1 (by decide)
    | v' :: vs, w' :: ws =>
      obtain ⟨hitems, hrest⟩ := writeItems_append_inj g (v' :: vs) (w' :: ws)
        (List.append_cancel_left (List.cons.inj htail).2)
      exact ⟨congrArg (List.cons v) hitems, hrest⟩

theorem writeMembers_append_inj (g : Gaps) (vs ws : List (String × Json)) {rest more : List Char}
    (h : writeMembers g vs ++ '}' :: rest = writeMembers g ws ++ '}' :: more) :
    vs = ws ∧ rest = more := by
  match vs, ws with
  | [], [] => exact ⟨rfl, (List.cons.inj (List.append_cancel_left h)).2⟩
  | [], (n, w) :: ws =>
    rw [writeMembers_cons_append] at h
    exact absurd (List.cons.inj h).1 (by decide)
  | (n, v) :: vs, [] =>
    rw [writeMembers_cons_append] at h
    exact absurd (List.cons.inj h).1 (by decide)
  | (n, v) :: vs, (n', w) :: ws =>
    rw [writeMembers_cons_append, writeMembers_cons_append] at h
    obtain ⟨rfl, hvalue⟩ := quote_append_inj h
    obtain ⟨rfl, htail⟩ := write_append_inj g v w (stops_membersAfter g vs rest)
      (stops_membersAfter g ws more) (List.append_cancel_left (List.cons.inj hvalue).2)
    match vs, ws with
    | [], [] => exact ⟨rfl, (List.cons.inj htail).2⟩
    | [], _ :: _ => exact absurd (List.cons.inj htail).1 (by decide)
    | _ :: _, [] => exact absurd (List.cons.inj htail).1 (by decide)
    | v' :: vs, w' :: ws =>
      obtain ⟨hmembers, hrest⟩ := writeMembers_append_inj g (v' :: vs) (w' :: ws)
        (List.append_cancel_left (List.cons.inj htail).2)
      exact ⟨congrArg (List.cons (n, v)) hmembers, hrest⟩

end

theorem write_inj {g : Gaps} {v w : Json} (h : write g v = write g w) : v = w :=
  (write_append_inj g v w stops_nil stops_nil (by rw [h])).1

end Json

end CohortAnalytics
