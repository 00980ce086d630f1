import CohortAnalytics.Experiment.Definition
import CohortAnalytics.Json.Lenient
import CohortAnalytics.Time.Iso

/-!
Experiments as documents. Members are read in the order in which they stand, and the finished
experiment is checked afterwards.
-/

namespace CohortAnalytics

open Lenient

namespace Variant

/-- A variant without a name has its id for one. -/
def ofJson (j : Json) : Variant :=
  let id := textOf (field j "id")
  ⟨id, (text? (field j "name")).getD id, numberOf (field j "weight")⟩

end Variant

namespace GoalType

def ofJson (j : Json) : Except ExperimentError GoalType :=
  match ofName? (textOf j) with
  | some type => .ok type
  | none => .error (.unknownGoalType (textOf j))

end GoalType

namespace Goal

def ofJson (j : Json) : Except ExperimentError Goal := do
  let id := textOf (field j "id")
  let type ← match j.get? "type" with
    | some t => GoalType.ofJson t
    | none => .ok .customEvent
  return { id, type, name := (text? (field j "name")).getD id
           isPrimary := isTrue (field j "is_primary"), eventName := text? (field j "event_name") }

def toJson (g : Goal) : Json :=
  .object [("id", .text g.id), ("name", .text g.name), ("type", .text g.type.name),
    ("is_primary", .bool g.isPrimary), ("event_name", (g.eventName.map .text).getD .null)]

end Goal

namespace ExperimentStatus

def ofJson (j : Json) : Except ExperimentError ExperimentStatus :=
  match ofName? (textOf j) with
  | some status => .ok status
  | none => .error (.unknownStatus (textOf j))

end ExperimentStatus

namespace Experiment

def stamp? (j : Json) : Option Stamp :=
  match (text? j).map fun s => Iso.read s.toList with
  | some (.ok s) => some s
  | _ => none

def withMember (e : Experiment) : String × Json → Except ExperimentError Experiment
  | ("experiment_id", v) => .ok { e with id := textOf v }
  | ("site_id", v) => .ok { e with site := textOf v }
  | ("name", v) => .ok { e with name := textOf v }
  | ("variants", v) => .ok { e with variants := (listOf v).map Variant.ofJson }
  | ("status", v) => do return { e with status := ← ExperimentStatus.ofJson v }
  | ("goal_event", v) => .ok { e with goalEvent := textOf v }
  | ("goals", v) => do return { e with goals := ← (listOf v).mapM Goal.ofJson }
  | ("traffic_percentage", v) => .ok { e with traffic := numberOf v }
  | ("started_at", v) => .ok { e with startedAt := stamp? v }
  | ("version", v) => .ok { e with version := intOf v }
  | _ => .ok e

def ofJson (j : Json) : Except ExperimentError Experiment := do
  let e : Experiment := { id := "", site := "", name := "", variants := [] }
  make (← (membersOf j).foldlM withMember e)

end Experiment

end CohortAnalytics
