import CohortAnalytics.Failure
import CohortAnalytics.Number.Basic
import CohortAnalytics.Random.Source

/-!
Programs that draw from a source of chance and may fail.
-/

namespace CohortAnalytics

abbrev Draw (σ : Type) := StateT σ (Except Failure)

namespace Draw

variable {σ α : Type}

def fail (f : Failure) : Draw σ α := fun _ => .error f

def share (source : RandomSource σ) : Draw σ Float := fun s => .ok (source.share s)

/-- A whole number between two bounds, both included. -/
def between (source : RandomSource σ) (low high : Int) : Draw σ Int := fun s =>
  if h : low ≤ high then
    let (n, s) := source.below (high - low + 1).toNat (by omega) s
    .ok (low + n, s)
  else .error (.invalid "empty range of whole numbers")

def choose (source : RandomSource σ) (xs : List α) : Draw σ α := fun s =>
  if h : 0 < xs.length then
    let (i, s) := source.below xs.length h s
    .ok (xs[i], s)
  else .error .noItem

/-- A share of the way from one number to another. -/
def uniform (source : RandomSource σ) (low high : Float) : Draw σ Float := do
  return low + (high - low) * (← share source)

def happens (source : RandomSource σ) (chance : Float) : Draw σ Bool := do
  return (← share source) < chance

def cumulate? (total : Number) : List Number → Option (List Number)
  | [] => some []
  | w :: rest => do
    let total ← total.add? w
    return total :: (← cumulate? total rest)

/-- Place of the first sum above a number between two places, by halving; the last place where none
is. -/
def search (sums : List Number) (x : Number) : Nat → Nat → Nat → Nat
  | 0, low, _ => low
  | turns + 1, low, high =>
    if low < high then
      let middle := (low + high) / 2
      if x.lt (sums.getD middle default) then search sums x turns low middle
      else search sums x turns (middle + 1) high
    else low

/-- Sums and their total, which has to be positive and finite. -/
def totalOf? (weights : List Number) : Except Failure (List Number × Float) :=
  match cumulate? (.int 0) weights with
  | none => .error .beyondRange
  | some sums =>
    match sums.getLast? with
    | none => .error .noItem
    | some last =>
      match last.toFloat? with
      | none => .error .beyondRange
      | some total =>
        if total ≤ 0 then .error (.invalid "Total of weights must be greater than zero")
        else if total.isFinite then .ok (sums, total)
        else .error (.invalid "Total of weights must be finite")

def weighted (source : RandomSource σ) (xs : List α) (weights : List Number) : Draw σ α := do
  if weights.length ≠ xs.length then
    fail (.invalid "The number of weights does not match the population")
  let (sums, total) ← StateT.lift (totalOf? weights)
  let x := (← share source) * total
  match xs[search sums (.float x) xs.length 0 (xs.length - 1)]? with
  | some item => return item
  | none => fail .noItem

end Draw

end CohortAnalytics
