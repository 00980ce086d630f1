/-!
Sources of chance. A program that draws from one is written for every source, so what it shows
about its result holds for every seed.
-/

namespace CohortAnalytics

/-- A stream of draws: a share of one, a number below a bound, and a block of bytes. -/
structure RandomSource (σ : Type) where
  share : σ → Float × σ
  below : (n : Nat) → 0 < n → σ → Fin n × σ
  block : Nat → σ → List UInt8 × σ

end CohortAnalytics
