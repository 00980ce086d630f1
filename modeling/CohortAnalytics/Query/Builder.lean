import CohortAnalytics.Query.Filter

/-!
Statements built up call by call. The texts of the filters and their parameters are kept in two
lists, which only meet again in the store.
-/

namespace CohortAnalytics

inductive FilterCall
  | site (id : String)
  | dates (start finish : Instant)
  | filter (f : Fragment)
  | predicate (p : Predicate)

namespace FilterCall

def fragment : FilterCall → Fragment
  | .site id => (Filter.site id).fragment
  | .dates start finish => (Filter.window start finish).fragment
  | .filter f => f
  | .predicate p => Filter.predicateFragment p

end FilterCall

structure QueryBuilder where
  table : String := "events"
  filters : List String := []
  params : List Param := []

namespace QueryBuilder

def add (b : QueryBuilder) (call : FilterCall) : QueryBuilder :=
  { b with
    filters := b.filters ++ [call.fragment.text]
    params := b.params ++ call.fragment.params }

def ofCalls (table : String) (calls : List FilterCall) : QueryBuilder :=
  calls.foldl add { table }

/-- The parameters of the groups come first, then those of the measures, then those of the calls. -/
def build (b : QueryBuilder) (measures : List (String × Fragment)) (groups : List Fragment)
    (orderBy : Option String) (descending : Bool) (limit : Option Int) : String × List Param :=
  let texts : Statement :=
    { table := b.table, groups, measures, filters := b.filters.map fun text => ⟨text, []⟩, orderBy,
      descending, limit }
  let ofGroups := groups.flatMap Fragment.params
  let ofMeasures := measures.flatMap fun (_, f) => f.params
  (texts.text, ofGroups ++ ofMeasures ++ b.params)

end QueryBuilder

end CohortAnalytics
