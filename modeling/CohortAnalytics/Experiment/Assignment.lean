import CohortAnalytics.Digest.Hashes
import CohortAnalytics.Entries
import CohortAnalytics.Experiment.Definition
import CohortAnalytics.Failure

/-!
Assignment of visitors to variants. Buckets of a key come from a hash, so a visitor always gets the
same variant; one bucket decides on traffic and another, independent of it, on the variant.
-/

namespace CohortAnalytics

-- Powers are the ones of core, whatever else is in scope.
attribute [local instance (high)] instPowNat

abbrev Bucketing := String → Float

/-- The share that the first eight bytes of a digest stand for. -/
def bucketOfPrefix (n : Nat) : Float := Binary.ofQuotient false n (2 ^ (64 : Nat))

def digestPrefix (digest : List UInt8) : Nat := (digest.take 8).foldl (fun n b => n * 256 + b.toNat) 0

def bucketBy (hash : List UInt8 → List UInt8) : Bucketing := fun key =>
  bucketOfPrefix (digestPrefix (hash key.toUTF8.toList))

def bucket : Bucketing := bucketBy Digest.sha256

namespace Experiment

def isInTraffic (buckets : Bucketing) (e : Experiment) (visitor : String) : Bool :=
  Number.le (.int 100) e.traffic ||
    Number.lt (.float (buckets (e.id ++ "_traffic:" ++ visitor) * 100)) e.traffic

section Weights

variable {α : Type} [Add α] [LT α] [DecidableLT α]

/-- The first variant at which the sum of the weights is above a share. The weights are added up as
numbers of some kind, and it fails at a weight that is none of them. -/
def reach (weigh? : Number → Option α) (share : α) :
    α → List Variant → Except Failure (Option Variant)
  | _, [] => .ok none
  | total, v :: rest =>
    match weigh? v.weight with
    | none => .error .beyondRange
    | some w =>
      let total := total + w
      if share < total then .ok (some v) else reach weigh? share total rest

/-- A share that no sum of weights is above falls to the last variant. -/
def variantBy (weigh? : Number → Option α) (zero : α) (e : Experiment) (share : α) :
    Except Failure (Option Variant) := do
  return (← reach weigh? share zero e.variants).or e.variants.getLast?

end Weights

def variantAt (e : Experiment) (share : Float) : Except Failure (Option Variant) :=
  e.variantBy Number.toFloat? 0.0 share

def assign (buckets : Bucketing) (e : Experiment) (visitor : String) :
    Except Failure (Option String) := do
  if e.isInTraffic buckets visitor then
    return (← e.variantAt (buckets (e.id ++ ":" ++ visitor))).map Variant.id
  else return none

/-- The variant that the visitor gets, if the assignment does not fail. -/
def assign? (buckets : Bucketing) (e : Experiment) (visitor : String) : Option String :=
  (e.assign buckets visitor).toOption.join

end Experiment

def assignAll (buckets : Bucketing) (experiments : List Experiment) (visitor : String) :
    Except Failure (Entries String) :=
  experiments.foldlM
    (fun assigned e => do
      if e.status = .running then
        match ← e.assign buckets visitor with
        | some variant => return assigned.put e.id variant
        | none => return assigned
      else return assigned) []

end CohortAnalytics
