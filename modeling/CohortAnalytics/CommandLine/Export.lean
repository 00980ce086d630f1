import CohortAnalytics.CommandLine.Printing
import CohortAnalytics.CommandLine.Switch
import CohortAnalytics.Json.Writer
import CohortAnalytics.Number.Places
import CohortAnalytics.Service.Export

/-!
The command that writes what the dashboard shows into a document.
-/

namespace CohortAnalytics

namespace CommandLine

def dashboardDocument : String := "src/dashboard/data.json"

structure ExportOptions where
  database : String := "data/events.duckdb"
  out : String := dashboardDocument
  days : Int := 30
  logLevel : String := "WARNING"

namespace ExportOptions

def switches : List (Switch ExportOptions) := [
  helpSwitch,
  ⟨["--db"], .text fun s o => { o with database := s }, "path of the warehouse"⟩,
  ⟨["--out"], .text fun s o => { o with out := s }, "path of the document"⟩,
  ⟨["--days"], .whole fun n o => { o with days := n }, "days up to now that count"⟩,
  ⟨["--log-level"], .text fun s o => { o with logLevel := s }, "least level that is logged"⟩]

end ExportOptions

def logLevels : List String :=
  ["CRITICAL", "FATAL", "ERROR", "WARN", "WARNING", "INFO", "DEBUG", "NOTSET"]

/-- Besides the letters of ASCII, the dotless i and the long s have capitals in it. -/
def capital (c : Char) : Char :=
  if c = 'ı' then 'I' else if c = 'ſ' then 'S' else c.toUpper

/-- Levels are named in any case. -/
def checkLogLevel (name : String) : Except Failure Unit :=
  let name := String.ofList (name.toList.map capital)
  if logLevels.contains name then .ok ()
  else .error (.invalid ("Unknown level: " ++ quotedText name))

/-- Thousands are set off by commas. -/
def countText (n : Int) : String :=
  String.ofList ((if n < 0 then ['-'] else []) ++ groupThousands (Nat.toDigits 10 n.natAbs))

def reportLine : Report → List String
  | .cohort r => ["  Cohort " ++ r.cohort.name ++ ": " ++ countText r.metrics.sessions ++
      " sessions"]
  | .experiment r => ["  Experiment " ++ r.id ++ ": " ++ r.statusText]
  | .comparison _ => []

def buildExport (around : Surroundings) (o : ExportOptions) (table : Option EventTable) :
    Printing Export := do
  let config : Config := { defaultWindowDays := o.days }
  let cache ← Printing.ofExcept .failure (config.newCache (.float 0.0))
  let service : Service := { config, catalog := demoCatalog, now := around.now.wall }
  Printing.say ("Exporting results for " ++ demoSite ++ " from " ++ o.database ++ "...")
  Printing.ofExcept .refused
    (Export.build service Store.warehouse { cache, store := table }).1

def openForWriting (around : Surroundings) (path : String) : Printing Unit :=
  match around.look path with
  | .directory => Printing.breakOff (.directoryInPlace path)
  | .beneathFile => Printing.breakOff (.noDirectory path)
  | _ => return ()

def exportDocument (around : Surroundings) (o : ExportOptions) : Printing Conclusion := do
  Printing.ofExcept .failure (checkLogLevel o.logLevel)
  let table ← openWarehouse around o.database
  let e ← buildExport around o table
  openForWriting around o.out
  Printing.sayAll ((e.cohorts ++ e.experiments).flatMap reportLine)
  Printing.say ("Wrote " ++ Path.shown o.out)
  return {
    written := keepWarehouse o.database table ++ [(o.out, .document (Json.lines e.toJson))] }

end CommandLine

end CohortAnalytics
