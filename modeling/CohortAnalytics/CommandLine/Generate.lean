import CohortAnalytics.CommandLine.Printing
import CohortAnalytics.CommandLine.Switch
import CohortAnalytics.Experiment.Definition
import CohortAnalytics.Simulation.Basic

/-!
The command that simulates traffic and loads it into a warehouse.
-/

namespace CohortAnalytics

namespace CommandLine

structure GenerateOptions where
  sessions : Int := 4000
  days : Int := 14
  seed : Int := 42
  site : String := checkoutExperiment.site
  database : String := "data/events.duckdb"
  withExperiment : Bool := false

namespace GenerateOptions

def switches : List (Switch GenerateOptions) := [
  helpSwitch,
  ⟨["--sessions"], .whole fun n o => { o with sessions := n }, "number of sessions"⟩,
  ⟨["--days"], .whole fun n o => { o with days := n }, "days over which they are spread"⟩,
  ⟨["--seed"], .whole fun n o => { o with seed := n }, "seed of chance"⟩,
  ⟨["--site"], .text fun s o => { o with site := s }, "id of the site"⟩,
  ⟨["--db"], .text fun s o => { o with database := s }, "path of the warehouse"⟩,
  ⟨["--experiment"], .mark fun o => { o with withExperiment := true }, "run the experiment"⟩]

def config (o : GenerateOptions) : SimulationConfig :=
  { sessions := o.sessions, site := o.site, days := o.days, seed := o.seed }

def experiments (o : GenerateOptions) : List Experiment :=
  if o.withExperiment then [checkoutExperiment] else []

end GenerateOptions

def experimentLines (e : Experiment) : List String :=
  ("Experiment: " ++ e.name ++ " (" ++ e.id ++ ")") ::
    e.variants.map fun v => "  " ++ v.id ++ ": " ++ percentText (v.weight.toFloat?.getD 0.0) ++ " traffic"

/-- How many events there are of each type that occurs, by the names of the types. -/
def countByType (events : List Event) : List (String × Nat) :=
  let counts := EventType.all.map fun t => (t.name, events.countP fun e => e.type == t)
  (counts.filter fun c => 0 < c.2).mergeSort fun a b => a.1 ≤ b.1

/-- Simulated time ends a day before the present. -/
def simulationEnd (now : Stamp) : Except Failure Stamp :=
  match now.wall.shift? (-microsPerDay) with
  | some wall => .ok { now with wall }
  | none => .error .beyondRange

def generate (around : Surroundings) (o : GenerateOptions) : Printing Conclusion := do
  Printing.sayAll (o.experiments.flatMap experimentLines)
  Printing.say ("Generating " ++ toString o.sessions ++ " sessions over " ++ toString o.days ++
    " days (seed=" ++ toString o.seed ++ ")...")
  let finish ← Printing.ofExcept .failure (simulationEnd around.now)
  let events ← Printing.ofExcept .failure (Simulation.events o.config o.experiments finish)
  Printing.say ("Generated " ++ toString events.length ++ " events")
  Printing.say "Event breakdown:"
  Printing.sayAll ((countByType events).map fun (name, n) => "  " ++ name ++ ": " ++ toString n)
  Printing.sayAll ["", "Loading into warehouse at " ++ o.database ++ "..."]
  let table := (← openWarehouse around o.database).getD {}
  let (table, loaded) := EventTable.insert table (events.map Event.members)
  let (inserted, skipped) ← Printing.ofExcept .notLoaded loaded
  Printing.sayAll ["Inserted: " ++ toString inserted ++ ", Duplicates skipped: " ++
    toString skipped, "Done."]
  return { written := keepWarehouse o.database (some table) }

end CommandLine

end CohortAnalytics
