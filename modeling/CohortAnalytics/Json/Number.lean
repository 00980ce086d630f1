import CohortAnalytics.Failure
import CohortAnalytics.Json.Basic
import CohortAnalytics.Number.Reading

/-!
Numbers out of loose values.
-/

namespace CohortAnalytics

namespace Json

/-- Nothing counts as zero, and text is read as a float. -/
def toNumber : Json → Except Failure Number
  | .null => .ok (.int 0)
  | .bool b => .ok (.int (if b then 1 else 0))
  | .number n => .ok n
  | .text s =>
    match readFloat? s with
    | some x => .ok (.float x)
    | none => .error (.unreadableNumber s)
  | _ => .error .wrongKind

/-- A whole number, toward zero. -/
def toWhole : Json → Except Failure Int
  | .bool b => .ok (if b then 1 else 0)
  | .number n =>
    match n.truncate? with
    | some m => .ok m
    | none =>
      match n with
      | .float x => .error (if x.isNaN then .notANumber else .beyondRange)
      | .int m => .ok m
  | .text s =>
    match readInt? s with
    | some n => .ok n
    | none => .error (.unreadableInteger s)
  | _ => .error .wrongKind

end Json

namespace Number

def toWhole (n : Number) : Except Failure Int := Json.toWhole (.number n)

end Number

end CohortAnalytics
