import CohortAnalytics.Query.Statement
import CohortAnalytics.Warehouse.Event

/-!
Filters on events: what they say to the store, and which events they let through. A clause is kept
as it is written, as alternatives of tests; when clauses are joined by AND without brackets, the
last alternative of one and the first of the next become one.
-/

namespace CohortAnalytics

inductive EventColumn
  | id
  | site
  | session
  | type
  | text (column : TextColumn)
  | number (column : NumberColumn)
  | deadClick
  deriving DecidableEq

namespace EventColumn

def all : List EventColumn :=
  [.id, .site, .session, .type, .deadClick] ++ TextColumn.all.map .text ++
    NumberColumn.all.map .number

def name : EventColumn → String
  | .id => "event_id"
  | .site => "site_id"
  | .session => "session_id"
  | .type => "event_type"
  | .text c => c.name
  | .number c => c.name
  | .deadClick => deadClickColumn

def value? (e : StoredEvent) : EventColumn → Option Json
  | .id => some (.text e.id)
  | .site => some (.text e.site)
  | .session => some (.text e.session)
  | .type => some (.text e.type)
  | .text c => (c.value? e).map .text
  | .number c => (c.value? e).map .number
  | .deadClick => e.isDeadClick.map .bool

/-- Values that may be compared with the column; null always may. -/
def accepts (column : EventColumn) (v : Json) : Bool :=
  match column, v with
  | _, .null => true
  | .number _, .number _ => true
  | .deadClick, .bool _ => true
  | .number _, _ => false
  | .deadClick, _ => false
  | _, .text _ => true
  | _, _ => false

end EventColumn

inductive CompareOp
  | eq
  | ne
  | lt
  | le
  | gt
  | ge
  deriving DecidableEq

namespace CompareOp

def symbols : List (String × CompareOp) :=
  [("=", .eq), ("!=", .ne), ("<>", .ne), ("<", .lt), ("<=", .le), (">", .gt), (">=", .ge)]

def ofOrdering (op : CompareOp) (o : Ordering) : Bool :=
  match op with
  | .eq => o == .eq
  | .ne => o != .eq
  | .lt => o == .lt
  | .le => o != .gt
  | .gt => o == .gt
  | .ge => o != .lt

end CompareOp

/-- The order of two values of one kind. -/
def valueOrder? : Json → Json → Option Ordering
  | .text s, .text t => some (compare s t)
  | .number m, .number n => Number.order? m n
  | .bool a, .bool b => some (compare a b)
  | _, _ => none

inductive EventTest
  | siteIs (site : String)
  | inWindow (start finish : Instant)
  | selected (p : Predicate)
  | hasPath
  | takesPart (experiment : String)
  | typeIs (type : String)
  | payloadIs (name value : String)
  | compare (column : EventColumn) (op : CompareOp) (value : Json)
  | grouped (alternatives : List (List EventTest))

/-- Alternatives, each a list of tests that all have to hold. -/
abbrev Clause := List (List EventTest)

mutual

def EventTest.holds (e : StoredEvent) : EventTest → Bool
  | .siteIs site => e.site == site
  | .inWindow start finish => start.le e.timestamp && e.timestamp.le finish
  | .selected p => Predicate.holds p e
  | .hasPath => e.pagePath.any (· != "")
  | .takesPart experiment => e.takesPartIn experiment
  | .typeIs type => e.type == type
  | .payloadIs name value => e.payload? name == some value
  | .compare column op value =>
    ((column.value? e).bind (valueOrder? · value)).any op.ofOrdering
  | .grouped alternatives => anyHolds e alternatives

def allHold (e : StoredEvent) : List EventTest → Bool
  | [] => true
  | t :: rest => t.holds e && allHold e rest

def anyHolds (e : StoredEvent) : List (List EventTest) → Bool
  | [] => false
  | ts :: rest => allHold e ts || anyHolds e rest

end

namespace Clause

def test (t : EventTest) : Clause := [[t]]

def followedBy : Clause → Clause → Clause
  | [], b => b
  | [a], b =>
    match b with
    | [] => [a]
    | first :: rest => (a ++ first) :: rest
  | a :: rest, b => a :: followedBy rest b

def holds (c : Clause) (e : StoredEvent) : Bool := anyHolds e c

end Clause

/-- A filter without meaning is one that the store rejects. -/
structure Filter where
  fragment : Fragment
  meaning : Option Clause

namespace Filter

def ofTest (text : String) (params : List Param) (t : EventTest) : Filter :=
  ⟨⟨text, params⟩, some (.test t)⟩

def textParam (s : String) : Param := .value (.text s)

def site (site : String) : Filter := ofTest "site_id = ?" [textParam site] (.siteIs site)

def window (start finish : Instant) : Filter :=
  ofTest "timestamp BETWEEN ? AND ?" [.instant start, .instant finish] (.inWindow start finish)

def predicateFragment (p : Predicate) : Fragment :=
  ⟨"(" ++ Predicate.sql p ++ ")", (Predicate.params p).map .value⟩

def predicate (p : Predicate) : Filter :=
  ⟨predicateFragment p, some (.test (.selected p))⟩

def hasPath : Filter := ofTest "page_path IS NOT NULL AND page_path != ''" [] .hasPath

def takesPart (experiment : String) : Filter :=
  ofTest "list_contains(experiment_ids, ?)" [textParam experiment] (.takesPart experiment)

def typeIs (type : String) : Filter := ofTest "event_type = ?" [textParam type] (.typeIs type)

def payloadText (name : String) : String := "json_extract_string(data, '$." ++ name ++ "')"

def payloadIs (name value : String) : Filter :=
  ofTest (payloadText name ++ " = ?") [textParam value] (.payloadIs name value)

/-- The clauses of all filters joined by AND; `none` if one has no meaning. -/
def joined? (filters : List Filter) : Option Clause := do
  return (← filters.mapM Filter.meaning).foldl Clause.followedBy [[]]

end Filter

end CohortAnalytics
