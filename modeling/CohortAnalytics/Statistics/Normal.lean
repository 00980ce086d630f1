import CohortAnalytics.Number.Binary

/-!
The standard normal distribution: its cumulative share and the inverse. Shares come from exact
integers in units of `2 ^ (-192)`: near the middle from the series
`x + x³ / 3 + x⁵ / (3 · 5) + …` times the density, in the tail from the continued fraction
`1 / (x + 1 / (x + 2 / (x + …)))` times the density.
-/

namespace CohortAnalytics

-- Powers are the ones of core, whatever else is in scope.
attribute [local instance (high)] instPowNat

structure NormalCurve where
  cdf : Float → Float
  quantile : Float → Float

namespace Normal

def scale : Nat := 2 ^ (192 : Nat)

def times (a b : Nat) : Nat := a * b / scale

/-- The density at zero, the inverse root of twice the circle number. -/
def peak : Nat :=
  3989422804014326779399460599343818684758586311649346576659258296706579258993 * scale / 10 ^ (76 : Nat)

/-- Terms of a series, each the one before times `factor`, over a divisor that depends on its
place. -/
def series (factor : Nat) (divisor : Nat → Nat) : Nat → Nat → Nat → Nat → Nat
  | 0, _, _, sum => sum
  | turns + 1, place, term, sum =>
    let term := times term factor / divisor place
    series factor divisor turns (place + 1) term (sum + term)

/-- `exp (x² / 2)`. -/
def growth (x : Nat) : Nat :=
  let half := times x x / 2
  series half (· + 1) (3 * (half / scale) + 160) 0 scale scale

def oddSeries (x : Nat) : Nat := series (times x x) (2 * · + 3) 200 0 x x

/-- `x + n / (x + (n + 1) / (x + …))`, `turns` levels deep. -/
def fraction (x : Nat) : Nat → Nat → Nat
  | 0, _ => x
  | turns + 1, n => x + n * scale * scale / fraction x turns (n + 1)

def tail (x : Nat) : Nat × Nat :=
  if x < 4 * scale then (growth x - 2 * times peak (oddSeries x), 2 * growth x)
  else (peak * scale, growth x * fraction x 160 1)

/-- Whether a share, given as a part and its whole, is at least `num / den`. -/
def reaches (num den : Nat) (share : Nat × Nat) : Bool := num * share.2 ≤ share.1 * den

/-- Halves the range that holds the greatest `n` to keep. -/
def bisect (keep : Nat → Bool) : Nat → Nat → Nat
  | 0, low => low
  | step + 1, low =>
    let middle := low + 2 ^ step
    if keep middle then bisect keep step middle else bisect keep step low

/-- Where the share above is `num / den`, in units of `2 ^ (-112)`. -/
def tailPoint (num den : Nat) : Nat :=
  bisect (fun n => reaches num den (tail (n * 2 ^ (80 : Nat)))) 118 0

/-- The share below a point on either side of the middle, from the one above the point as far on
the upper side. -/
def shareBelow (negative : Bool) : Nat × Nat → Float
  | (above, whole) => Binary.ofQuotient false (if negative then above else whole - above) whole

def cdf (x : Float) : Float :=
  match Binary.ofFloat? x with
  | none => if x.isNaN then x else if x < 0 then 0.0 else 1.0
  | some b =>
    if 40 * b.denominator ≤ b.numerator then (if b.negative then 0.0 else 1.0)
    else shareBelow b.negative (tail (b.numerator * scale / b.denominator))

def quantile (p : Float) : Float :=
  match Binary.ofFloat? p with
  | none => 0.0 / 0.0
  | some b =>
    let (num, den) := (b.numerator, b.denominator)
    if num = 0 then -1.0 / 0.0
    else if num = den then (if b.negative then 0.0 / 0.0 else 1.0 / 0.0)
    else if b.negative ∨ den < num then 0.0 / 0.0
    else if 2 * num = den then 0.0
    else if 2 * num < den then Binary.ofQuotient true (2 * tailPoint num den + 1) (2 ^ (113 : Nat))
    else Binary.ofQuotient false (2 * tailPoint (den - num) den + 1) (2 ^ (113 : Nat))

end Normal

def standardNormal : NormalCurve := ⟨Normal.cdf, Normal.quantile⟩

end CohortAnalytics
