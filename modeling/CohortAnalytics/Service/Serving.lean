import CohortAnalytics.Cache.Call
import CohortAnalytics.Service.Request

/-!
The service at work: tasks are answered from the cache or computed on a store, one after another.
Whatever fails a computation shows as a report without numbers, and such a report is never kept.
-/

namespace CohortAnalytics

structure Serving (σ : Type) where
  cache : Cache Number Report
  store : σ
  asked : List Query := []

namespace Serving

variable {σ : Type}

def inquire (store : Store σ) (i : Inquiry Report) (s : σ × List Query) :
    Outcome Report × σ × List Query :=
  let run := i.run store s.1
  (run.outcome, run.state, s.2 ++ run.asked)

def serve (store : Store σ) (t : ReportTask) (s : Serving σ) : Report × Serving σ :=
  let served := s.cache.call t.key (some (.float t.ttl)) (inquire store t.compute)
    (s.store, s.asked)
  let (st, asked) := served.state
  let report := match served.answer with
    | some (.ok r) => r
    | _ => t.failed
  (report, { cache := served.cache, store := st, asked })

def serveAll (store : Store σ) : List ReportTask → Serving σ → List Report × Serving σ
  | [], s => ([], s)
  | t :: rest, s =>
    let (r, s) := s.serve store t
    let (rs, s) := serveAll store rest s
    (r :: rs, s)

/-- The answer to a request. One that is refused leaves everything as it was. -/
def respond (service : Service) (store : Store σ) (r : Request) (s : Serving σ) :
    Except RequestError (List Report) × Serving σ :=
  match service.tasks r with
  | .error e => (.error e, s)
  | .ok ts =>
    let (reports, s) := s.serveAll store ts
    (.ok reports, s)

/-- Answers requests in turn, up to the first that is refused. -/
def respondAll (service : Service) (store : Store σ) :
    List Request → Serving σ → Except RequestError (List (List Report)) × Serving σ
  | [], s => (.ok [], s)
  | r :: rest, s =>
    match s.respond service store r with
    | (.error e, s) => (.error e, s)
    | (.ok reports, s) =>
      let (others, s) := respondAll service store rest s
      (others.map (reports :: ·), s)

end Serving

def Config.newCache (c : Config) (now : Number) : Except Failure (Cache Number Report) :=
  Cache.make c.cacheMaxEntries (.float c.resultsTtl) c.cacheWorkers now

end CohortAnalytics
