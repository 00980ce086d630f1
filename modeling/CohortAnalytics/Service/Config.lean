import CohortAnalytics.Number.Basic
import CohortAnalytics.Number.Reading
import CohortAnalytics.Text.Quoted

/-!
Settings of the analytics service. Each has a default and may be given as text under its name.
-/

namespace CohortAnalytics

structure Config where
  cacheMaxEntries : Int := 200
  resultsTtl : Float := 30.0
  cohortTtl : Float := 60.0
  cacheWorkers : Int := 8
  queryTimeout : Float := 30.0
  defaultWindowDays : Int := 30
  topPagesLimit : Int := 10
  minimumDetectableEffect : Float := 0.1
  fallbackBaselineRate : Float := 0.05
  deriving DecidableEq

namespace Config

inductive Setting
  | whole (get : Config → Int) (put : Int → Config → Config)
  | real (get : Config → Float) (put : Float → Config → Config)

def settings : List (String × Setting) := [
  ("cache_max_entries", .whole cacheMaxEntries fun n c => { c with cacheMaxEntries := n }),
  ("results_ttl_s", .real resultsTtl fun x c => { c with resultsTtl := x }),
  ("cohort_ttl_s", .real cohortTtl fun x c => { c with cohortTtl := x }),
  ("cache_workers", .whole cacheWorkers fun n c => { c with cacheWorkers := n }),
  ("query_timeout_s", .real queryTimeout fun x c => { c with queryTimeout := x }),
  ("default_window_days", .whole defaultWindowDays fun n c => { c with defaultWindowDays := n }),
  ("top_pages_limit", .whole topPagesLimit fun n c => { c with topPagesLimit := n }),
  ("minimum_detectable_effect",
    .real minimumDetectableEffect fun x c => { c with minimumDetectableEffect := x }),
  ("fallback_baseline_rate",
    .real fallbackBaselineRate fun x c => { c with fallbackBaselineRate := x })]

def variableName (name : String) : String :=
  String.ofList ("ANALYTICS_".toList ++ name.toList.map Char.toUpper)

/-- A text under a setting's name that writes no such number. -/
structure Unreadable where
  key : String
  text : String
  deriving DecidableEq

namespace Unreadable

def message (e : Unreadable) : String := "Invalid " ++ e.key ++ "=" ++ quotedText e.text

end Unreadable

def applySetting (environment : String → Option String) (c : Config) (s : String × Setting) :
    Except Unreadable Config :=
  let key := variableName s.1
  match environment key with
  | none => .ok c
  | some text =>
    match s.2 with
    | .whole _ put =>
      match readInt? text with
      | some n => .ok (put n c)
      | none => .error ⟨key, text⟩
    | .real _ put =>
      match readFloat? text with
      | some x => .ok (put x c)
      | none => .error ⟨key, text⟩

def ofEnvironment (environment : String → Option String) : Except Unreadable Config :=
  settings.foldlM (applySetting environment) {}

def values (c : Config) : List (String × Number) :=
  settings.map fun (name, s) =>
    (name, match s with
      | .whole get _ => .int (get c)
      | .real get _ => .float (get c))

end Config

end CohortAnalytics
