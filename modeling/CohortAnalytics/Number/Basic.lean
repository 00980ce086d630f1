import CohortAnalytics.Number.Shortest

/-!
Numbers as data carries them: integers of any size and floats, kept apart. Order and equality
compare exact values, so no integer is rounded to be compared.
-/

namespace CohortAnalytics

inductive Number
  | int (n : Int)
  | float (x : Float)
  deriving DecidableEq

namespace Number

instance : Inhabited Number := ⟨.int 0⟩

def text : Number → String
  | .int n => toString n
  | .float x => floatText x

/-- Nearest float; `none` for an integer beyond the finite range. -/
def toFloat? : Number → Option Float
  | .int n => Binary.ofInt? n
  | .float x => some x

/-- An integer against a float: a float that is not finite is beyond every integer. -/
def compareInt (n : Int) (x : Float) : Option Ordering :=
  match Binary.ofFloat? x with
  | some b => some (compare (n * b.denominator) b.signed)
  | none => if x.isNaN then none else some (if x < 0 then .gt else .lt)

def compareFloat (x y : Float) : Option Ordering :=
  if x < y then some .lt else if y < x then some .gt else if x == y then some .eq else none

/-- `none` where one side is not a number. -/
def order? : Number → Number → Option Ordering
  | .int m, .int n => some (compare m n)
  | .int m, .float y => compareInt m y
  | .float x, .int n => (compareInt n x).map Ordering.swap
  | .float x, .float y => compareFloat x y

def lt (a b : Number) : Bool := order? a b == some .lt

def le (a b : Number) : Bool := order? a b == some .lt || order? a b == some .eq

def eqv (a b : Number) : Bool := order? a b == some .eq

def isZero (a : Number) : Bool := a.eqv (.int 0)

/-- Toward zero; `none` for what is not finite. -/
def truncate? : Number → Option Int
  | .int n => some n
  | .float x => (Binary.ofFloat? x).map fun b => Int.tdiv b.signed b.denominator

/-- Integers add exactly; with a float on either side both are floats. -/
def add? : Number → Number → Option Number
  | .int m, .int n => some (.int (m + n))
  | a, b => do return .float ((← a.toFloat?) + (← b.toFloat?))

end Number

/-- The whole number a float stands for, if it stands for one. -/
def wholeFloat? (x : Float) : Option Int :=
  match Binary.ofFloat? x with
  | some b => if b.signed % b.denominator = 0 then some (b.signed / b.denominator) else none
  | none => none

def ceilFloat? (x : Float) : Option Int :=
  (Binary.ofFloat? x).map fun b => -(-b.signed / b.denominator)

end CohortAnalytics
