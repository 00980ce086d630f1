import CohortAnalytics.Number.Binary

/-!
A float to a fixed number of decimal places. The exact binary value is rounded, a half to the even
neighbour.
-/

namespace CohortAnalytics

-- Powers are the ones of core, whatever else is in scope.
attribute [local instance (high)] instPowNat

def Binary.inPlaces (b : Binary) (places : Nat) : Nat :=
  nearest (b.numerator * 10 ^ places) b.denominator

def roundPlaces (places : Nat) (x : Float) : Float :=
  match Binary.ofFloat? x with
  | none => x
  | some b => Binary.ofQuotient b.negative (b.inPlaces places) (10 ^ places)

/-- Commas between groups of three digits, counted from the right. -/
def groupThousands (digits : List Char) : List Char :=
  let n := digits.length
  (digits.zipIdx.flatMap fun (c, i) => if 0 < i ∧ (n - i) % 3 = 0 then [',', c] else [c])

def fixedPlaces (places : Nat) (x : Float) : String :=
  match Binary.ofFloat? x with
  | none => if x.isNaN then "nan" else if x < 0 then "-inf" else "inf"
  | some b =>
    let digits := Nat.toDigits 10 (b.inPlaces places)
    let digits := List.replicate (places + 1 - digits.length) '0' ++ digits
    let whole := digits.take (digits.length - places)
    let fraction := if places = 0 then [] else '.' :: digits.drop (digits.length - places)
    String.ofList ((if b.negative then ['-'] else []) ++ whole ++ fraction)

def percentText (x : Float) : String := fixedPlaces 0 (x * 100) ++ "%"

end CohortAnalytics
