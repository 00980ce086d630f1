import CohortAnalytics.Audit.Basic
import CohortAnalytics.CommandLine.Export
import CohortAnalytics.Json.Reader

/-!
The command that audits the document of the dashboard and says what it holds.
-/

namespace CohortAnalytics

namespace CommandLine

structure ValidateOptions where
  data : String := dashboardDocument

namespace ValidateOptions

def switches : List (Switch ValidateOptions) := [
  helpSwitch,
  ⟨["--data"], .text fun s o => { o with data := s }, "path of the document"⟩]

end ValidateOptions

def wordsRefuseCommas : String := "Cannot specify ',' with 's'."

/-- A number with its thousands set off by commas, in a float those before the point. -/
def groupedText : Json → Except Failure String
  | .bool b => .ok (if b then "1" else "0")
  | .number (.int n) => .ok (countText n)
  | .number (.float x) =>
    let (sign, digits) := match (floatText x).toList with
      | '-' :: rest => (['-'], rest)
      | rest => ([], rest)
    let whole := digits.takeWhile fun c => (asciiDigit? c).isSome
    .ok (String.ofList (sign ++ groupThousands whole ++ digits.drop whole.length))
  | .text _ => .error (.invalid wordsRefuseCommas)
  | _ => .error .wrongKind

def oneDecimal (j : Json) : Except Failure String :=
  match j.number? with
  | none => .error .wrongKind
  | some n =>
    match n.toFloat? with
    | some x => .ok (fixedPlaces 1 x)
    | none => .error .beyondRange

def cohortLine (item : Json) : Except Failure String := do
  let name ← (← item.member "cohort").member "name"
  let sessions ← (← item.member "metrics").member "sessions"
  return "  Cohort " ++ name.display ++ ": " ++ (← groupedText sessions) ++ " sessions"

def experimentLine (e : Json) : Except Failure String := do
  let id ← e.member "experiment_id"
  let status ← e.member "status_message"
  let confidence ← oneDecimal (← e.member "confidence_level")
  return "  Experiment " ++ id.display ++ ": " ++ status.display ++ " (" ++ confidence ++
    "% confidence)"

def sayEach (line : Json → Except Failure String) : List Json → Printing Unit
  | [] => return ()
  | j :: rest => do
    Printing.say (← Printing.ofExcept .failure (line j))
    sayEach line rest

def saySummary (data : Json) : Printing Unit := do
  let cohorts ← Printing.ofExcept .failure (data.member "cohorts" >>= Json.parts)
  sayEach cohortLine cohorts
  let experiments ← Printing.ofExcept .failure (data.member "experiments" >>= Json.parts)
  sayEach experimentLine experiments

def auditDocument (data : Json) : Printing Conclusion := do
  match ← Printing.ofExcept .failure (audit data) with
  | [] =>
    Printing.say "PASS: Analytics integrity validated"
    saySummary data
    return {}
  | findings =>
    Printing.say ("FAIL: " ++ toString findings.length ++ " validation error(s):")
    Printing.sayAll (findings.map fun f => "  - " ++ f.message)
    return { passed := false }

def notFoundLine (path : String) : String :=
  "FAIL: " ++ path ++ " not found. Run 'python -m src.analysis.export' first."

def validate (around : Surroundings) (o : ValidateOptions) : Printing Conclusion := do
  match around.look o.data with
  | .missing => Printing.say (notFoundLine o.data); return { passed := false }
  | .beneathFile => Printing.say (notFoundLine o.data); return { passed := false }
  | .directory => Printing.breakOff (.directoryInPlace o.data)
  | .warehouse _ => Printing.breakOff (.notText o.data)
  | .unreadable => Printing.breakOff (.notText o.data)
  | .document text =>
    match Json.read? text with
    | some data => auditDocument data
    | none => Printing.breakOff (.notJson o.data)

end CommandLine

end CohortAnalytics
