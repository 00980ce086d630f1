import CohortAnalytics.CommandLine.Command
import CohortAnalytics.Warehouse.Archive
import Std.Time.DateTime.Timestamp

/-!
The command line: finds what stands at the paths of a command, runs it, prints its lines and writes
its files.
-/

namespace CohortAnalytics

namespace CommandLine

/-- Microseconds from the start of year 1 to the start of 1970. -/
def epochMicros : Int := 719162 * microsPerDay

def presentMoment : IO Stamp := do
  let t ← Std.Time.Timestamp.now
  let micros := epochMicros + t.val.toNanoseconds.val / 1000
  return ⟨(Instant.ofMicros? micros).getD default, some 0⟩

/-- A file is a warehouse if it reads as an archive, and a document otherwise. -/
def contentOf (text : String) : Content :=
  match Warehouse.restore? text with
  | some table => .warehouse table
  | none => .document text

def textOf? : Content → Option String
  | .warehouse table => some (Warehouse.archive table)
  | .document text => some text
  | _ => none

/-- A path that leads on from a file cannot be opened; a directory opens, but cannot be read. -/
def lookAt (path : String) : IO Content := do
  try
    return contentOf (← IO.FS.readFile (if path = "" then "." else path))
  catch
    | .noFileOrDirectory .. => return .missing
    | .inappropriateType (some _) .. => return .beneathFile
    | .inappropriateType none .. => return .directory
    | .userError _ => return .unreadable
    | e => throw e

def lookAtAll : List String → IO (Entries Content)
  | [] => return []
  | path :: rest => do
    let content ← lookAt path
    return (path, content) :: (← lookAtAll rest)

def directoryOf? (path : String) : Option String :=
  match (path.toList.reverse.dropWhile (· ≠ '/')).drop 1 with
  | [] => none
  | back => some (String.ofList back.reverse)

def writeFile (path : String) (content : Content) : IO Unit := do
  match textOf? content with
  | none => return ()
  | some text =>
    match directoryOf? path with
    | some directory => IO.FS.createDirAll directory
    | none => pure ()
    IO.FS.writeFile path text

def perform (c : Command) : IO UInt32 := do
  let found ← lookAtAll c.paths
  let run := c.run {
    now := ← presentMoment
    look := fun path => (Entries.find? path found).getD .missing }
  IO.print run.printed
  match run.conclusion with
  | .ok _ => run.written.forM fun (path, content) => writeFile path content
  | .error b => IO.eprintln b.message
  return run.exitCode.toUInt32

def answerRefusal (name : String) : Refusal → IO Unit
  | .helpWanted => IO.println ("\n".intercalate (Command.usage name))
  | r => IO.eprintln (name ++ ": " ++ r.message)

def runArguments : List String → IO UInt32
  | [] => do
    IO.eprintln ("\n".intercalate (Command.usage ""))
    return 2
  | name :: args => do
    match Command.ofArguments? name args with
    | some (.ok c) => perform c
    | some (.error r) =>
      answerRefusal name r
      return r.exitCode.toUInt32
    | none =>
      IO.eprintln ("\n".intercalate (Command.usage name))
      return 2

end CommandLine

end CohortAnalytics

def main (args : List String) : IO UInt32 := CohortAnalytics.CommandLine.runArguments args
