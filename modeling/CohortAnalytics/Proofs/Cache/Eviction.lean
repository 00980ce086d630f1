import CohortAnalytics.Proofs.Cache.Contents
import CohortAnalytics.Proofs.Number.Order

/-!
What storing evicts: nothing as long as there is room, and otherwise the half of all entries, rounded
down, that was computed first. A value stored at the latest moment of all stays.
-/

namespace CohortAnalytics

namespace Entries

variable {α : Type} {name : String}

end Entries

namespace CacheTable

section Halves

variable {τ V : Type} {t : CacheTable τ V} {key : String} {e : CacheEntry τ V}
variable {capacity : ℕ} {x y : String × CacheEntry τ V}

variable [Clock τ]

end Halves

section Ages

variable {V : Type} {t : CacheTable Number V} {x y : String × CacheEntry Number V}

end Ages

end CacheTable

end CohortAnalytics
