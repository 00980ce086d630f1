/-!
Floating-point numbers taken apart into sign, mantissa and exponent, and the nearest one to an
exact quotient. Every conversion of the library between exact and binary numbers passes here.
-/

namespace CohortAnalytics

-- Powers are the ones of core, whatever else is in scope.
attribute [local instance (high)] instPowNat

/-- The finite number `± mantissa * 2 ^ exponent`. -/
structure Binary where
  negative : Bool
  mantissa : Nat
  exponent : Int
  deriving DecidableEq

namespace Binary

/-- The quotient rounded to the nearest whole number, a half to the even neighbour. -/
def nearest (num den : Nat) : Nat :=
  let q := num / den
  let r := num % den
  if 2 * r < den then q
  else if den < 2 * r then q + 1
  else if q % 2 = 0 then q else q + 1

def ofFloat? (x : Float) : Option Binary :=
  let bits : Nat := x.toBits.toNat
  let field : Nat := bits / 2 ^ (52 : Nat) % 2 ^ (11 : Nat)
  let fraction : Nat := bits % 2 ^ (52 : Nat)
  let negative := bits / 2 ^ (63 : Nat) == 1
  if field = 2047 then none
  else if field = 0 then some ⟨negative, fraction, -1074⟩
  else some ⟨negative, fraction + 2 ^ (52 : Nat), (field : Int) - 1075⟩

def numerator (b : Binary) : Nat := b.mantissa * 2 ^ b.exponent.toNat

def denominator (b : Binary) : Nat := 2 ^ (-b.exponent).toNat

/-- The signed numerator over `denominator`. -/
def signed (b : Binary) : Int := if b.negative then -b.numerator else b.numerator

/-- The greatest `k` with `2 ^ k ≤ num / den`. -/
def magnitude (num den : Nat) : Int :=
  let k : Int := num.log2 - den.log2
  if den * 2 ^ k.toNat ≤ num * 2 ^ (-k).toNat then k else k - 1

def infinityBits : Nat := 2047 * 2 ^ (52 : Nat)

/-- The bit pattern of the double nearest to `num / den`, in unbounded range. The pattern of
`m * 2 ^ q` is `(q + 1074) * 2 ^ 52 + m`, also when `m` has carried into the next exponent. -/
def quotientBits (num den : Nat) : Nat :=
  let q := max (magnitude num den - 52) (-1074)
  (q + 1074).toNat * 2 ^ (52 : Nat) + nearest (num * 2 ^ (-q).toNat) (den * 2 ^ q.toNat)

/-- The double nearest to `num / den`; beyond the finite range, infinity. -/
def ofQuotient (negative : Bool) (num den : Nat) : Float :=
  let bits := if num = 0 then 0 else min (quotientBits num den) infinityBits
  Float.ofBits (bits + if negative then 2 ^ (63 : Nat) else 0).toUInt64

/-- The double nearest to a quotient of integers, `none` beyond the finite range. -/
def ofRatio? (num : Int) (den : Int) : Option Float :=
  if num.natAbs ≠ 0 ∧ infinityBits ≤ quotientBits num.natAbs den.natAbs then none
  else some (ofQuotient ((num < 0) != (den < 0) && num != 0) num.natAbs den.natAbs)

def ofInt? (n : Int) : Option Float := ofRatio? n 1

/-- The double nearest to `digits * 10 ^ exponent`. Exponents far outside the range of doubles
are answered without the power of ten. -/
def ofDecimal (negative : Bool) (digits : Nat) (exponent : Int) : Float :=
  let size : Int := (digits.log2 : Int) * 30103 / 100000 + exponent
  if digits = 0 ∨ size < -400 then ofQuotient negative 0 1
  else if 400 < size then ofQuotient negative (2 ^ (1024 : Nat)) 1
  else ofQuotient negative (digits * 10 ^ exponent.toNat) (10 ^ (-exponent).toNat)

end Binary

end CohortAnalytics
