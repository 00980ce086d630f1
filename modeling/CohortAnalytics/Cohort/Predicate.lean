import CohortAnalytics.Cohort.Field
import CohortAnalytics.Json.Basic

/-!
Predicates over event columns: conditions joined by AND. A condition has a text with placeholders
and the parameters that take their places; no value enters the text.
-/

namespace CohortAnalytics

inductive NumberTest
  | equals (x : Float)
  | above (x : Float)
  | below (x : Float)
  | between (low high : Float)
  deriving DecidableEq

inductive Condition
  | textIs (column : TextColumn) (text : String)
  | textLike (column : TextColumn) (pattern : String)
  | number (column : NumberColumn) (test : NumberTest)
  | deadClickIs (value : Bool)
  deriving DecidableEq

namespace NumberTest

def op : NumberTest → String
  | .equals _ => "="
  | .above _ => ">"
  | .below _ => "<"
  | .between _ _ => "BETWEEN"

def params : NumberTest → List Json
  | .equals x => [.float x]
  | .above x => [.float x]
  | .below x => [.float x]
  | .between low high => [.float low, .float high]

end NumberTest

namespace Condition

def column : Condition → String
  | .textIs c _ => c.name
  | .textLike c _ => c.name
  | .number c _ => c.name
  | .deadClickIs _ => deadClickColumn

def op : Condition → String
  | .textIs _ _ => "="
  | .textLike _ _ => "LIKE"
  | .number _ test => test.op
  | .deadClickIs _ => "="

def params : Condition → List Json
  | .textIs _ text => [.text text]
  | .textLike _ pattern => [.text pattern]
  | .number _ test => test.params
  | .deadClickIs value => [.bool value]

def withLiterals (column op : String) : List String → String
  | [low, high] => column ++ " BETWEEN " ++ low ++ " AND " ++ high
  | [literal] =>
    column ++ " " ++ op ++ " " ++ literal ++ (if op = "LIKE" then " ESCAPE '\\'" else "")
  | _ => column

def sql (c : Condition) : String := withLiterals c.column c.op (c.params.map fun _ => "?")

end Condition

/-- Empty means that every event is selected. -/
abbrev Predicate := List Condition

namespace Predicate

def everything : String := "1=1"

def joined (conditions : List String) : String :=
  if conditions.isEmpty then everything else " AND ".intercalate conditions

def sql (p : Predicate) : String := joined (p.map Condition.sql)

def params (p : Predicate) : List Json := p.flatMap Condition.params

end Predicate

end CohortAnalytics
