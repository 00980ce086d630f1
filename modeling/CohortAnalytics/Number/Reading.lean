import CohortAnalytics.Number.Binary
import CohortAnalytics.Text.Characters

/-!
Numbers read from text. Blanks around the number are dropped, digits of any script count, and a
single underscore may stand between two digits.
-/

namespace CohortAnalytics

namespace Reading

/-- The longest run of digits at the front, and what follows it; `inside` when a digit came
right before. -/
def digitsFrom (inside : Bool) : List Char → List Nat × List Char
  | [] => ([], [])
  | c :: rest =>
    match digitValue? c with
    | some v =>
      let (vs, left) := digitsFrom true rest
      (v :: vs, left)
    | none =>
      if inside && c == '_' && rest.head?.any isDigit then digitsFrom false rest else ([], c :: rest)

abbrev digits : List Char → List Nat × List Char := digitsFrom false

def value (digits : List Nat) : Nat := digits.foldl (fun n d => 10 * n + d) 0

def sign : List Char → Bool × List Char
  | '-' :: rest => (true, rest)
  | '+' :: rest => (false, rest)
  | rest => (false, rest)

/-- What may follow the digits of a number: nothing, or `e` and a signed whole number. -/
def exponent? : List Char → Option Int
  | [] => some 0
  | c :: rest =>
    if c = 'e' ∨ c = 'E' then
      let (negative, rest) := sign rest
      match digits rest with
      | ([], _) => none
      | (ds, []) => some (if negative then -(value ds : Int) else value ds)
      | _ => none
    else none

def named? (cs : List Char) : Option Float :=
  let word := String.ofList (cs.map Char.toLower)
  if word = "inf" ∨ word = "infinity" then some (1.0 / 0.0)
  else if word = "nan" then some (0.0 / 0.0)
  else none

def unsigned? (negative : Bool) (cs : List Char) : Option Float := do
  let (whole, rest) := digits cs
  let (fraction, rest) := match rest with
    | '.' :: more => digits more
    | _ => ([], rest)
  if whole.isEmpty && fraction.isEmpty then none
  let e ← exponent? rest
  return Binary.ofDecimal negative (value (whole ++ fraction)) (e - fraction.length)

end Reading

/-- A float, or `none` for a text that writes none. Beyond the finite range it is infinite. -/
def readFloat? (s : String) : Option Float :=
  let (negative, rest) := Reading.sign (trimBlank s.toList)
  match Reading.named? rest with
  | some x => some (if negative then -x else x)
  | none => Reading.unsigned? negative rest

/-- An integer of at most 4300 digits. -/
def readInt? (s : String) : Option Int :=
  let (negative, rest) := Reading.sign (trimBlank s.toList)
  match Reading.digits rest with
  | ([], _) => none
  | (ds, []) =>
    if 4300 < ds.length then none
    else some (if negative then -(Reading.value ds : Int) else Reading.value ds)
  | _ => none

end CohortAnalytics
