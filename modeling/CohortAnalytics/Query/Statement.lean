import CohortAnalytics.Json.Basic
import CohortAnalytics.Time.Instant

/-!
Statements as the store receives them: a text with placeholders, and the parameters that take their
places in order. Every value travels as a parameter.
-/

namespace CohortAnalytics

inductive Param
  | value (v : Json)
  | instant (t : Instant)

/-- A piece of text and the parameters of its placeholders. -/
structure Fragment where
  text : String
  params : List Param := []

namespace Fragment

def placeholders (f : Fragment) : Nat := f.text.toList.count '?'

/-- As many placeholders as parameters. -/
def Balanced (f : Fragment) : Prop := f.placeholders = f.params.length

end Fragment

structure Statement where
  table : String := "events"
  groups : List Fragment := []
  measures : List (String × Fragment) := []
  filters : List Fragment := []
  orderBy : Option String := none
  descending : Bool := true
  limit : Option Int := none

namespace Statement

def groupName (i : Nat) : String := "group_" ++ toString i

def groupNames (s : Statement) : List String :=
  (List.range s.groups.length).map groupName

def selectItems (s : Statement) : List (String × Fragment) :=
  s.groupNames.zip s.groups ++ s.measures

def selectText (s : Statement) : String :=
  ", ".intercalate (s.selectItems.map fun (name, f) => f.text ++ " AS " ++ name)

def whereText (s : Statement) : String :=
  if s.filters.isEmpty then "1=1" else " AND ".intercalate (s.filters.map Fragment.text)

def groupText (s : Statement) : String :=
  if s.groups.isEmpty then ""
  else " GROUP BY " ++
    ", ".intercalate ((List.range s.groups.length).map fun i => toString (i + 1))

/-- The measure to order by comes first and the groups after it, so the order is always settled. -/
def orderText (s : Statement) : String :=
  let first := s.orderBy.map fun name => name ++ (if s.descending then " DESC" else " ASC")
  let all := first.toList ++ s.groupNames
  if all.isEmpty then "" else " ORDER BY " ++ ", ".intercalate all

def limitText (s : Statement) : String :=
  match s.limit with
  | some n => " LIMIT " ++ toString n
  | none => ""

def text (s : Statement) : String :=
  "SELECT " ++ s.selectText ++ " FROM " ++ s.table ++ " WHERE " ++ s.whereText ++ s.groupText ++
    s.orderText ++ s.limitText

def fragments (s : Statement) : List Fragment :=
  s.groups ++ s.measures.map Prod.snd ++ s.filters

def params (s : Statement) : List Param := s.fragments.flatMap Fragment.params

end Statement

end CohortAnalytics
