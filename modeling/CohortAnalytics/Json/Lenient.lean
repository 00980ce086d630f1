import CohortAnalytics.Json.Basic

/-!
Readings of a document whose shape is promised: what is not there, or is of another kind, counts as
empty or zero.
-/

namespace CohortAnalytics

namespace Lenient

def field (j : Json) (name : String) : Json := (j.get? name).getD .null

def text? : Json → Option String
  | .text s => some s
  | _ => none

def textOf (j : Json) : String := (text? j).getD ""

/-- A truth value counts as 0 or 1. -/
def int? (j : Json) : Option Int :=
  match j.number? with
  | some (.int n) => some n
  | _ => none

def intOf (j : Json) : Int := (int? j).getD 0

def numberOf (j : Json) : Number := j.number?.getD (.int 0)

/-- An integer beyond every float is infinite. -/
def floatOf (j : Json) : Float := (numberOf j).toFloat?.getD (1.0 / 0.0)

def isTrue (j : Json) : Bool := !j.isNothing

def listOf : Json → List Json
  | .array items => items
  | _ => []

def textsOf (j : Json) : List String := (listOf j).map textOf

def membersOf : Json → List (String × Json)
  | .object members => members
  | _ => []

end Lenient

end CohortAnalytics
