import CohortAnalytics.Cohort.Rule
import CohortAnalytics.Number.Reading

/-!
Rule values as the compiler sees them: text or a number.
-/

namespace CohortAnalytics

inductive RuleValue
  | text (s : String)
  | number (x : Float)

namespace RuleValue

/-- A truth value is the text of its name. `none` for an integer beyond the range of floats. -/
def ofJson? : Json → Option RuleValue
  | .bool b => some (.text (if b then "true" else "false"))
  | .number n => n.toFloat?.map .number
  | v => some (.text v.display)

def ofScalar? (s : Scalar) : Option RuleValue := ofJson? s.toJson

def finite? (x : Float) : Option Float := if (Binary.ofFloat? x).isSome then some x else none

/-- The number, or the number that the text writes, unless it is not finite. -/
def asNumber? : RuleValue → Option Float
  | .number x => finite? x
  | .text s => (readFloat? s).bind finite?

/-- A whole number is written without a decimal point. -/
def asText : RuleValue → String
  | .text s => s
  | .number x =>
    match wholeFloat? x with
    | some n => toString n
    | none => floatText x

end RuleValue

end CohortAnalytics
