import CohortAnalytics.Cohort.Rule
import CohortAnalytics.Digest.Hashes
import CohortAnalytics.Json.Writer

/-!
Cohorts: named segments of one site, each a list of rules.
-/

namespace CohortAnalytics

structure Cohort where
  id : String
  site : String
  name : String
  rules : List Rule := []
  deriving DecidableEq

namespace Cohort

def rulesJson (c : Cohort) : Json := .array (c.rules.map Rule.toJson)

/-- The first sixteen hexadecimal digits of the digest of the rules' canonical text. -/
def rulesHash (c : Cohort) : String :=
  String.ofList ((Digest.sha256Hex c.rulesJson.canonical).toList.take 16)

def rulesOf : Json → Checked (List Rule)
  | .array items => Checked.items Rule.ofJson items
  | _ => .wrong .notTuple

def ofMembers (members : List (String × Json)) : Checked Cohort :=
  let id := Json.required "id" Json.asText members
  let site := Json.required "site_id" Json.asText members
  let name := Json.required "name" Json.asText members
  let rules := Json.optional "rules" [] rulesOf members
  (Checked.both id (Checked.both site (Checked.both name rules))).map
    fun (id, site, name, rules) => ⟨id, site, name, rules⟩

def ofJson : Json → Checked Cohort
  | .object members => ofMembers members
  | _ => .wrong .notModel

def toJson (c : Cohort) : Json :=
  .object [("id", .text c.id), ("site_id", .text c.site), ("name", .text c.name),
    ("rules", c.rulesJson)]

end Cohort

end CohortAnalytics
