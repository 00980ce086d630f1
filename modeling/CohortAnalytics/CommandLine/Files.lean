import CohortAnalytics.Entries
import CohortAnalytics.Warehouse.Table

/-!
Files by path: documents and warehouses, and the directories that hold them.
-/

namespace CohortAnalytics

namespace CommandLine

inductive Content
  | missing
  | directory
  /-- the path leads on from a file -/
  | beneathFile
  /-- a warehouse, with its table of events if it has one -/
  | warehouse (table : Option EventTable)
  | document (text : String)
  /-- neither a warehouse nor text -/
  | unreadable

namespace Path

/-- The names between slashes. An empty name and a single dot lead nowhere. -/
def names (path : String) : List String :=
  (path.splitOn "/").filter fun n => n ≠ "" ∧ n ≠ "."

/-- Exactly two slashes at the front are kept, more of them count as one. -/
def root (path : String) : String :=
  match (path.toList.takeWhile (· == '/')).length with
  | 0 => ""
  | 2 => "//"
  | _ => "/"

/-- A path in its plainest spelling; the empty path is the place itself. -/
def shown (path : String) : String :=
  match root path ++ "/".intercalate (names path) with
  | "" => "."
  | text => text

/-- Two dots lead back to where the name before them stands. -/
def step (back : List String) (name : String) : List String :=
  match name, back with
  | "..", n :: rest => if n = ".." then name :: back else rest
  | _, _ => name :: back

/-- One spelling for all paths to one place. -/
def place (path : String) : String :=
  shown (root path ++ "/".intercalate ((names path).foldl step []).reverse)

def isInside (inner outer : String) : Bool :=
  inner ≠ outer && (outer == "." || (outer ++ "/").toList.isPrefixOf inner.toList)

end Path

abbrev Files := Entries Content

namespace Files

def look (files : Files) (path : String) : Content :=
  let place := Path.place path
  match Entries.find? place files with
  | some content => content
  | none =>
    if place = "." || files.any fun f => Path.isInside f.1 place then .directory
    else if files.any fun f => Path.isInside place f.1 then .beneathFile
    else .missing

def write (files : Files) (path : String) (content : Content) : Files :=
  files.put (Path.place path) content

end Files

end CommandLine

end CohortAnalytics
