import CohortAnalytics.CommandLine.Generate
import CohortAnalytics.CommandLine.Validate

/-!
The commands by name, each with its options.
-/

namespace CohortAnalytics

namespace CommandLine

inductive Command
  | generate (o : GenerateOptions)
  | exportDocument (o : ExportOptions)
  | validate (o : ValidateOptions)

namespace Command

def names : List String := ["generate", "export", "validate"]

def ofArguments? (name : String) (args : List String) : Option (Except Refusal Command) :=
  match name with
  | "generate" => some ((readArguments GenerateOptions.switches {} args).map .generate)
  | "export" => some ((readArguments ExportOptions.switches {} args).map .exportDocument)
  | "validate" => some ((readArguments ValidateOptions.switches {} args).map .validate)
  | _ => none

def paths : Command → List String
  | .generate o => [o.database]
  | .exportDocument o => [o.database, o.out]
  | .validate o => [o.data]

def run (around : Surroundings) (c : Command) : CommandRun :=
  .ofPrinting (match c with
    | .generate o => CommandLine.generate around o
    | .exportDocument o => CommandLine.exportDocument around o
    | .validate o => CommandLine.validate around o)

def switchLines {ω : Type} (ss : List (Switch ω)) : List String :=
  ss.map fun s => "  " ++ ", ".intercalate s.names ++ "  " ++ s.about

def usage (name : String) : List String :=
  match name with
  | "generate" => "usage: generate" :: switchLines GenerateOptions.switches
  | "export" => "usage: export" :: switchLines ExportOptions.switches
  | "validate" => "usage: validate" :: switchLines ValidateOptions.switches
  | _ => ["usage: " ++ " | ".intercalate names]

end Command

end CommandLine

end CohortAnalytics
