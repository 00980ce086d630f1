import CohortAnalytics.Number.Binary

/-!
The written form of a double: the fewest decimal digits that read back to it, nearest to it among
those, laid out positionally or with an exponent as a `FloatLayout` says.
-/

namespace CohortAnalytics

-- Powers are the ones of core, whatever else is in scope.
attribute [local instance (high)] instPowNat

namespace Binary

/-- The reals that round to a number lie between `lower` and `upper`, in units of a quarter of its
last place; the ends belong to it when the mantissa is even. -/
def lower (b : Binary) : Nat :=
  4 * b.mantissa - if b.mantissa = 2 ^ (52 : Nat) ∧ -1074 < b.exponent then 1 else 2

def upper (b : Binary) : Nat := 4 * b.mantissa + 2

def covers (b : Binary) (low point high : Nat) : Bool :=
  if b.mantissa % 2 = 0 then low ≤ point && point ≤ high else low < point && point < high

/-- The multiple of `10 ^ k` next to the number that reads back to it, if there is one. -/
def onGrid? (b : Binary) (k : Int) : Option Nat :=
  let step := 10 ^ k.toNat * 2 ^ (2 - b.exponent).toNat
  let scale := 2 ^ (b.exponent - 2).toNat * 10 ^ (-k).toNat
  let value := 4 * b.mantissa * scale
  let below := value / step
  let low := b.covers (b.lower * scale) (below * step) (b.upper * scale)
  let high := b.covers (b.lower * scale) ((below + 1) * step) (b.upper * scale)
  if low && high then some (nearest value step)
  else if low then some below
  else if high then some (below + 1)
  else none

/-- The greatest `k` with `10 ^ k ≤ num / den`. -/
def decimalMagnitude (num den : Nat) : Int :=
  let k := magnitude num den * 30103 / 100000
  let reached (e : Int) : Bool := 10 ^ e.toNat * den ≤ num * 10 ^ (-e).toNat
  if reached (k + 1) then k + 1 else if reached k then k else k - 1

end Binary

/-- The decimal number `0.d₁d₂… * 10 ^ point`. -/
structure Decimal where
  digits : List Char
  point : Int

namespace Decimal

def ofGrid (n : Nat) (k : Int) : Decimal :=
  let digits := Nat.toDigits 10 n
  ⟨(digits.reverse.dropWhile (· == '0')).reverse, digits.length + k⟩

/-- The shortest decimal that reads back to the number. Seventeen digits always do. -/
def shortest (b : Binary) : Decimal :=
  let top := Binary.decimalMagnitude b.numerator b.denominator
  ((List.range 17).findSome? fun (n : Nat) => (b.onGrid? (top - n)).map (ofGrid · (top - n))).getD
    (ofGrid b.numerator 0)

end Decimal

/-- How a float is laid out: the decimal points written positionally, and the spelling of the
exponent and of what is not a number. -/
structure FloatLayout where
  leastPoint : Int := -3
  greatestPoint : Int := 16
  positiveSign : List Char := ['+']
  exponentWidth : Nat := 2
  notANumber : String := "nan"
  infinite : String := "inf"

namespace FloatLayout

def exponent (s : FloatLayout) (e : Int) : List Char :=
  let digits := Nat.toDigits 10 e.natAbs
  'e' :: (if e < 0 then ['-'] else s.positiveSign) ++
    List.replicate (s.exponentWidth - digits.length) '0' ++ digits

/-- A positional number keeps a digit on both sides of the point. -/
def layOut (s : FloatLayout) (d : Decimal) : List Char :=
  let n := d.digits.length
  if d.point < s.leastPoint ∨ s.greatestPoint < d.point then
    match d.digits with
    | [c] => c :: s.exponent (d.point - 1)
    | c :: rest => c :: '.' :: rest ++ s.exponent (d.point - 1)
    | [] => []
  else if d.point ≤ 0 then '0' :: '.' :: List.replicate (-d.point).toNat '0' ++ d.digits
  else if (n : Int) ≤ d.point then
    d.digits ++ List.replicate (d.point.toNat - n) '0' ++ ['.', '0']
  else d.digits.take d.point.toNat ++ '.' :: d.digits.drop d.point.toNat

def write (s : FloatLayout) (x : Float) : List Char :=
  match Binary.ofFloat? x with
  | none =>
    if x.isNaN then s.notANumber.toList
    else if x < 0 then '-' :: s.infinite.toList else s.infinite.toList
  | some b =>
    (if b.negative then ['-'] else []) ++
      if b.mantissa = 0 then ['0', '.', '0'] else s.layOut (Decimal.shortest b)

end FloatLayout

/-- Positional from a ten-thousandth up to sixteen digits before the point. -/
def plainLayout : FloatLayout := {}

def floatText (x : Float) : String := String.ofList (plainLayout.write x)

end CohortAnalytics
