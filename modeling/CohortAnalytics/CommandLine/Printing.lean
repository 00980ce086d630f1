import CohortAnalytics.CommandLine.Files
import CohortAnalytics.Service.Request

/-!
What a command prints and leaves behind. Lines once printed stay, whatever breaks it off afterwards;
files are written only by a command that comes to its end.
-/

namespace CohortAnalytics

namespace CommandLine

structure Surroundings where
  now : Stamp
  look : String → Content

inductive Breakdown
  | failure (f : Failure)
  | refused (e : RequestError)
  | notLoaded (e : LoadError)
  | noDirectory (path : String)
  | directoryInPlace (path : String)
  | notWarehouse (path : String)
  | notText (path : String)
  | notJson (path : String)

namespace Breakdown

def message : Breakdown → String
  | .failure (.invalid message) => message
  | .failure (.missingKey key) => "a member is missing: " ++ quotedText key
  | .failure (.beyondRange) => "a number or a date is out of range"
  | .failure _ => "a value is of the wrong kind"
  | .refused e => e.message
  | .notLoaded e => e.message?.getD "an event lacks a column"
  | .noDirectory path => path ++ " does not lead to a directory"
  | .directoryInPlace path => path ++ " is a directory"
  | .notWarehouse path => path ++ " is not a warehouse"
  | .notText path => path ++ " does not hold text"
  | .notJson path => path ++ " does not hold JSON"

end Breakdown

abbrev Printing := ExceptT Breakdown (StateM (List String))

namespace Printing

def say (line : String) : Printing Unit := modify fun lines => lines ++ [line]

def sayAll (lines : List String) : Printing Unit := modify fun before => before ++ lines

def breakOff {α : Type} (b : Breakdown) : Printing α := throw b

def ofExcept {ε α : Type} (f : ε → Breakdown) (r : Except ε α) : Printing α :=
  match r with
  | .ok a => pure a
  | .error e => throw (f e)

end Printing

/-- The end of a command: whether it is content with what it saw, and the files it writes. -/
structure Conclusion where
  passed : Bool := true
  written : List (String × Content) := []

structure CommandRun where
  lines : List String
  conclusion : Except Breakdown Conclusion

namespace CommandRun

def ofPrinting (p : Printing Conclusion) : CommandRun :=
  let (conclusion, lines) := p.run.run []
  { lines := lines, conclusion := conclusion }

def printed (r : CommandRun) : String := String.join (r.lines.map (· ++ "\n"))

def written (r : CommandRun) : List (String × Content) :=
  match r.conclusion with
  | .ok c => c.written
  | .error _ => []

/-- A command that breaks off and one that is not content both end with 1. -/
def exitCode (r : CommandRun) : Nat :=
  match r.conclusion with
  | .ok c => if c.passed then 0 else 1
  | .error _ => 1

def leave (r : CommandRun) (files : Files) : Files :=
  r.written.foldl (fun files (path, content) => files.write path content) files

end CommandRun

/-- A warehouse that lives only as long as the command. -/
def isFleeting (path : String) : Bool := path == "" || ":memory:".toList.isPrefixOf path.toList

def openWarehouse (around : Surroundings) (path : String) : Printing (Option EventTable) :=
  if isFleeting path then return none
  else
    match around.look path with
    | .missing => return none
    | .warehouse table => return table
    | .directory => Printing.breakOff (.notWarehouse path)
    | .beneathFile => Printing.breakOff (.noDirectory path)
    | .document _ => Printing.breakOff (.notWarehouse path)
    | .unreadable => Printing.breakOff (.notWarehouse path)

def keepWarehouse (path : String) (table : Option EventTable) : List (String × Content) :=
  if isFleeting path then [] else [(path, .warehouse table)]

end CommandLine

end CohortAnalytics
