import CohortAnalytics.Json.Basic
import CohortAnalytics.Json.Issue

/-!
Rules as they arrive: a field, an operator and one or two values, each kept with its exact type.
-/

namespace CohortAnalytics

inductive Scalar
  | text (s : String)
  | number (n : Number)
  | bool (b : Bool)
  deriving DecidableEq

namespace Scalar

def toJson : Scalar → Json
  | .text s => .text s
  | .number n => .number n
  | .bool b => .bool b

def ofJson? : Json → Option Scalar
  | .text s => some (.text s)
  | .number n => some (.number n)
  | .bool b => some (.bool b)
  | _ => none

/-- A value may be of four types; one of none of them fails all four. -/
def issues : List Issue :=
  [⟨["str"], .notText⟩, ⟨["int"], .notInteger⟩, ⟨["float"], .notNumber⟩, ⟨["bool"], .notTruthValue⟩]

def ofJson (j : Json) : Checked Scalar :=
  match ofJson? j with
  | some s => .ok s
  | none => .error issues

end Scalar

/-- The operator is kept as written, so an unknown one can be skipped. -/
structure Rule where
  field : String
  operator : String
  value : Scalar
  value2 : Option Scalar := none
  deriving DecidableEq

namespace Json

def asText : Json → Checked String
  | .text s => .ok s
  | _ => .wrong .notText

/-- A member that has to be there, with its name put before what is wrong with it. -/
def required {α : Type} (name : String) (check : Json → Checked α)
    (members : List (String × Json)) : Checked α :=
  .within name
    (match Entries.find? name members with
      | some v => check v
      | none => .wrong .missing)

def optional {α : Type} (name : String) (default : α) (check : Json → Checked α)
    (members : List (String × Json)) : Checked α :=
  match Entries.find? name members with
  | some v => .within name (check v)
  | none => .ok default

def orNull {α : Type} (check : Json → Checked α) : Json → Checked (Option α)
  | .null => .ok none
  | v => (check v).map some

end Json

namespace Rule

def ofMembers (members : List (String × Json)) : Checked Rule :=
  let field := Json.required "field" Json.asText members
  let operator := Json.required "operator" Json.asText members
  let value := Json.required "value" Scalar.ofJson members
  let value2 := Json.optional "value2" none (Json.orNull Scalar.ofJson) members
  (Checked.both field (Checked.both operator (Checked.both value value2))).map
    fun (field, operator, value, value2) => ⟨field, operator, value, value2⟩

def ofJson : Json → Checked Rule
  | .object members => ofMembers members
  | _ => .wrong .notModel

def toJson (r : Rule) : Json :=
  .object [("field", .text r.field), ("operator", .text r.operator), ("value", r.value.toJson),
    ("value2", (r.value2.map Scalar.toJson).getD .null)]

end Rule

end CohortAnalytics
