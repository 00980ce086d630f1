import CohortAnalytics.Time.Timestamp
import CohortAnalytics.Warehouse.Event
import Std.Data.HashSet

/-!
The table of events: an append-only list with distinct ids. A batch is checked as a whole before any
of it is stored; then its events are stored one by one, up to the first that lacks a required
column.
-/

namespace CohortAnalytics

structure EventTable where
  rows : List StoredEvent := []

inductive LoadError
  | idMissing
  | timestampMissing
  | unreadableTimestamp (text : String) (cause : IsoError)
  | outsideCalendar
  | notAList
  | valueMissing
  | wrongType
  deriving DecidableEq

namespace LoadError

def idColumn : String := "event_id"

def message? : LoadError → Option String
  | .idMissing => some idColumn
  | .unreadableTimestamp text cause => some (cause.message text)
  | _ => none

end LoadError

/-- An event that has passed the first check; required columns may still be missing. -/
structure PendingEvent where
  id : Option String
  timestamp : Instant
  experimentIds : List (Option String)
  variantIds : List (Option String)
  columns : Entries Json

namespace PendingEvent

def readTimestamp : Option Json → Except LoadError Instant
  | some (.text s) =>
    match Iso.read (spellOffset s.toList) with
    | .error cause =>
      .error (.unreadableTimestamp (String.ofList (spellOffset s.toList)) cause)
    | .ok stamp =>
      match stamp.universal? with
      | some t => .ok t
      | none => .error .outsideCalendar
  | _ => .error .timestampMissing

def element : Json → Option String
  | .null => none
  | v => some v.display

/-- A list column; nothing is the empty list, and a text is the list of its characters. -/
def readList (value : Option Json) : Except LoadError (List (Option String)) :=
  match value with
  | none => .ok []
  | some v =>
    if v.isNothing then .ok []
    else
      match v with
      | .array items => .ok (items.map element)
      | .text s => .ok (s.toList.map fun c => some (String.singleton c))
      | .object members => .ok (members.map fun m => some m.1)
      | _ => .error .notAList

def ofMembers (id : Option String) (members : Entries Json) : Except LoadError PendingEvent := do
  let timestamp ← readTimestamp (members.find? "timestamp")
  let experimentIds ← readList (members.find? "experiment_ids")
  let variantIds ← readList (members.find? "variant_ids")
  return ⟨id, timestamp, experimentIds, variantIds, members⟩

def textColumn (e : PendingEvent) (name : String) : Except LoadError (Option String) :=
  match e.columns.find? name with
  | none => .ok none
  | some .null => .ok none
  | some (.text s) => .ok (some s)
  | some _ => .error .wrongType

def requiredColumn (e : PendingEvent) (name : String) : Except LoadError String := do
  match ← e.textColumn name with
  | some s => return s
  | none => .error .valueMissing

def realColumn (e : PendingEvent) (name : String) : Except LoadError (Option Float) :=
  match e.columns.find? name with
  | none => .ok none
  | some .null => .ok none
  | some (.number n) =>
    match n.toFloat? with
    | some x => .ok (some x)
    | none => .error .wrongType
  | some _ => .error .wrongType

/-- A whole number of 32 bits. -/
def wholeColumn (e : PendingEvent) (name : String) : Except LoadError (Option Int) :=
  match e.columns.find? name with
  | none => .ok none
  | some .null => .ok none
  | some (.number (.int n)) =>
    if -2147483648 ≤ n ∧ n ≤ 2147483647 then .ok (some n) else .error .wrongType
  | some _ => .error .wrongType

def truthColumn (e : PendingEvent) (name : String) : Except LoadError (Option Bool) :=
  match e.columns.find? name with
  | none => .ok none
  | some .null => .ok none
  | some (.bool b) => .ok (some b)
  | some _ => .error .wrongType

/-- The payload; nothing is the empty object. -/
def payload (e : PendingEvent) : Json :=
  match e.columns.find? "data" with
  | none => .object []
  | some v => if v.isNothing then .object [] else v

def store (e : PendingEvent) : Except LoadError StoredEvent := do
  let id ← match e.id with
    | some id => .ok id
    | none => .error .valueMissing
  return {
    id
    site := ← e.requiredColumn "site_id"
    session := ← e.requiredColumn "session_id"
    type := ← e.requiredColumn "event_type"
    timestamp := e.timestamp
    pagePath := ← e.textColumn "page_path"
    referrer := ← e.textColumn "referrer"
    userAgent := ← e.textColumn "user_agent"
    userLanguage := ← e.textColumn "user_language"
    deviceType := ← e.textColumn "device_type"
    viewportWidth := ← e.wholeColumn "viewport_width"
    scrollDepth := ← e.realColumn "scroll_depth"
    loadTime := ← e.realColumn "load_time"
    isDeadClick := ← e.truthColumn "is_dead_click"
    experimentIds := e.experimentIds
    variantIds := e.variantIds
    data := e.payload }

end PendingEvent

abbrev LooseEvent := Entries Json

namespace LooseEvent

/-- The id, which may be null but not absent. -/
def id (e : LooseEvent) : Except LoadError (Option String) :=
  match e.find? LoadError.idColumn with
  | none => .error .idMissing
  | some .null => .ok none
  | some v => .ok (some v.display)

end LooseEvent

/-- What a batch leaves to store, and how many of its events were there before. -/
structure Admission where
  pending : List PendingEvent := []
  duplicates : Nat := 0

namespace EventTable

def ids (t : EventTable) : List String := t.rows.map StoredEvent.id

/-- Ids, of which a null counts as one. -/
abbrev IdSet := Std.HashSet (Option String)

/-- Events whose id was seen before, in the table or earlier in the batch, are left out. -/
def screen (seen : IdSet) : List LooseEvent → Except LoadError Admission
  | [] => .ok {}
  | e :: rest => do
    let id ← LooseEvent.id e
    if seen.contains id then
      let a ← screen seen rest
      return { a with duplicates := a.duplicates + 1 }
    else
      let p ← PendingEvent.ofMembers id e
      let a ← screen (seen.insert id) rest
      return { a with pending := p :: a.pending }

/-- Events up to the first that cannot be stored, and why it cannot. -/
def storeAll : List PendingEvent → List StoredEvent × Option LoadError
  | [] => ([], none)
  | p :: rest =>
    match p.store with
    | .error e => ([], some e)
    | .ok row =>
      let (rows, e) := storeAll rest
      (row :: rows, e)

def insert (t : EventTable) (batch : List LooseEvent) :
    EventTable × Except LoadError (Nat × Nat) :=
  match screen (.ofList (t.ids.map some)) batch with
  | .error e => (t, .error e)
  | .ok a =>
    let (rows, failure) := storeAll a.pending
    (⟨t.rows ++ rows⟩,
      match failure with
      | some e => .error e
      | none => .ok (a.pending.length, a.duplicates))

def select (t : EventTable) (p : Predicate) : List String :=
  (t.rows.filter p.holds).map StoredEvent.id

end EventTable

end CohortAnalytics
