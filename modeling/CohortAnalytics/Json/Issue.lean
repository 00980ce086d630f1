/-!
What is wrong with loose data, and where in it.
-/

namespace CohortAnalytics

inductive IssueKind
  | missing
  | notText
  | notInteger
  | notNumber
  | notTruthValue
  | notTimestamp
  | notList
  | notTuple
  | notObject
  | notModel
  | notListed
  | unreadableInteger
  | unreadableNumber
  | unreadableTruthValue
  | unreadableTimestamp
  | timestampBeyondRange
  | fractionalInteger
  | integerTooLong
  | notFinite
  deriving DecidableEq

namespace IssueKind

def text : IssueKind → String
  | .missing => "missing"
  | .notText => "string_type"
  | .notInteger => "int_type"
  | .notNumber => "float_type"
  | .notTruthValue => "bool_type"
  | .notTimestamp => "datetime_type"
  | .notList => "list_type"
  | .notTuple => "tuple_type"
  | .notObject => "dict_type"
  | .notModel => "model_type"
  | .notListed => "enum"
  | .unreadableInteger => "int_parsing"
  | .unreadableNumber => "float_parsing"
  | .unreadableTruthValue => "bool_parsing"
  | .unreadableTimestamp => "datetime_from_date_parsing"
  | .timestampBeyondRange => "datetime_parsing"
  | .fractionalInteger => "int_from_float"
  | .integerTooLong => "int_parsing_size"
  | .notFinite => "finite_number"

end IssueKind

structure Issue where
  place : List String
  kind : IssueKind
  deriving DecidableEq

namespace Issue

def within (name : String) (i : Issue) : Issue := { i with place := name :: i.place }

end Issue

/-- A value read from loose data, or all that is wrong with it in the order of its members. -/
abbrev Checked (α : Type) := Except (List Issue) α

namespace Checked

def wrong {α : Type} (kind : IssueKind) : Checked α := .error [⟨[], kind⟩]

def within {α : Type} (name : String) (c : Checked α) : Checked α :=
  c.mapError (List.map (Issue.within name))

/-- Both values, or the issues of both. -/
def both {α β : Type} (a : Checked α) (b : Checked β) : Checked (α × β) :=
  match a, b with
  | .ok x, .ok y => .ok (x, y)
  | .error es, .ok _ => .error es
  | .ok _, .error es => .error es
  | .error es, .error fs => .error (es ++ fs)

def items {α β : Type} (check : α → Checked β) (xs : List α) : Checked (List β) :=
  (xs.zipIdx.map fun (x, i) => within (toString i) (check x)).foldr
    (fun c rest => (both c rest).map fun (x, xs) => x :: xs) (.ok [])

end Checked

end CohortAnalytics
