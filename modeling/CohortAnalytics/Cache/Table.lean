import CohortAnalytics.Cache.Key

/-!
The entries of a result cache: values with a lifetime, at most a given number of them. When a value
more than that is stored, the older half goes.
-/

namespace CohortAnalytics

/-- Moments of a clock: their order, and the moment a lifetime later. -/
class Clock (τ : Type) where
  le : τ → τ → Bool
  later : τ → τ → τ

instance : Clock Number where
  le := Number.le
  later a b := (a.add? b).getD a

structure CacheEntry (τ V : Type) where
  value : V
  computedAt : τ
  expiresAt : τ

abbrev CacheTable (τ V : Type) := Entries (CacheEntry τ V)

variable {τ V : Type} [Clock τ]

/-- An entry is gone from the moment at which it expires. -/
def CacheEntry.isExpired (now : τ) (e : CacheEntry τ V) : Bool := Clock.le e.expiresAt now

namespace CacheTable

/-- The entry under a key. One that has expired is dropped by looking. -/
def look (now : τ) (key : String) (t : CacheTable τ V) :
    Option (CacheEntry τ V) × CacheTable τ V :=
  match t.find? key with
  | none => (none, t)
  | some e => if e.isExpired now then (none, t.remove key) else (some e, t)

/-- The keys of the older half. Of two entries of one moment the one stored first is older. -/
def olderHalf (t : CacheTable τ V) : List String :=
  ((t.mergeSort fun a b => Clock.le a.2.computedAt b.2.computedAt).take (t.length / 2)).map
    Prod.fst

def without (keys : List String) (t : CacheTable τ V) : CacheTable τ V :=
  t.filter fun e => !keys.contains e.1

/-- The table with a value more, and how many entries went for it. -/
def store (capacity : Nat) (key : String) (e : CacheEntry τ V) (t : CacheTable τ V) :
    CacheTable τ V × Nat :=
  let t := t.put key e
  if capacity < t.length then (without (olderHalf t) t, (olderHalf t).length) else (t, 0)

def sweep (now : τ) (t : CacheTable τ V) : CacheTable τ V := t.filter fun e => !e.2.isExpired now

def dropSite (site : String) (t : CacheTable τ V) : CacheTable τ V :=
  t.filter fun e => !CacheKey.isOf site e.1

end CacheTable

end CohortAnalytics
