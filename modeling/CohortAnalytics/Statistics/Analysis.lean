import CohortAnalytics.Statistics.Comparison

/-!
Every variant against one control: the strongest comparison, whether it is significant, and the
winner. No correction is made for the number of variants.
-/

namespace CohortAnalytics

/-- Users a variant needs before a result may be called. -/
def minimumObservations : Nat := 100

structure Analysis where
  isSignificant : Bool
  confidence : Float
  winner : Option String := none
  z : Float := 0.0
  lift : Float := 0.0
  comparisons : List Comparison := []
  deriving DecidableEq

/-- The first item that no other one comes before. -/
def least? {α : Type} (before : α → α → Bool) : List α → Option α
  | [] => none
  | x :: rest => some (rest.foldl (fun best y => if before y best then y else best) x)

namespace Comparison

/-- Higher confidence first, then significance, then the larger statistic, then the id. -/
def before (a b : Comparison) : Bool :=
  if a.confidence != b.confidence then b.confidence < a.confidence
  else if a.isSignificant != b.isSignificant then a.isSignificant
  else if a.z.abs != b.z.abs then b.z.abs < a.z.abs
  else a.variant < b.variant

end Comparison

namespace VariantStats

/-- Higher rate first, then more users, then the id. -/
def before (a b : VariantStats) : Bool :=
  if a.rate != b.rate then b.rate < a.rate
  else if a.users ≠ b.users then b.users < a.users
  else a.id < b.id

end VariantStats

namespace Analysis

def active (variants : List VariantStats) : List VariantStats :=
  variants.filter fun v => 0 < v.users

/-- The first variant with users is the control; the others with users are compared with it. -/
def comparisonsOf (curve : NormalCurve) (variants : List VariantStats) : List Comparison :=
  match active variants with
  | [] => []
  | control :: others => others.map (compareVariants curve control)

def statsOf? (variants : List VariantStats) (id : String) : Option VariantStats :=
  variants.reverse.find? (·.id == id)

/-- The best of the significant variants that do better than the control, else the control. -/
def pickWinner? (variants : List VariantStats) (comparisons : List Comparison) : Option String :=
  let significant := comparisons.filter Comparison.isSignificant
  let better := (significant.filter fun c => 0 < c.z).filterMap fun c => statsOf? variants c.variant
  match least? VariantStats.before better with
  | some best => some best.id
  | none => significant.head?.map Comparison.control

def ofVariants (curve : NormalCurve) (variants : List VariantStats) : Analysis :=
  let comparisons := comparisonsOf curve variants
  match least? Comparison.before comparisons with
  | none => ⟨false, 0.0, none, 0.0, 0.0, []⟩
  | some best =>
    let enough := variants.all fun v => minimumObservations ≤ v.users
    let isSignificant := best.isSignificant && enough
    { isSignificant
      confidence := best.confidence
      winner := if isSignificant then pickWinner? variants comparisons else none
      z := best.z
      lift := best.lift
      comparisons }

end Analysis

end CohortAnalytics
