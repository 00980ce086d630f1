import CohortAnalytics.Entries
import CohortAnalytics.Number.Basic
import CohortAnalytics.Text.Quoted

/-!
Loose data: what a rule, an event payload or a store cell may hold before it is checked. Members of
an object keep their order and have distinct names.
-/

namespace CohortAnalytics

inductive Json
  | null
  | bool (b : Bool)
  | number (n : Number)
  | text (s : String)
  | array (items : List Json)
  | object (members : List (String × Json))

namespace Json

instance : Inhabited Json := ⟨.null⟩

abbrev int (n : Int) : Json := .number (.int n)

abbrev float (x : Float) : Json := .number (.float x)

def get? (j : Json) (name : String) : Option Json :=
  match j with
  | .object members => Entries.find? name members
  | _ => none

/-- Empty, zero, false and null count as nothing. -/
def isNothing : Json → Bool
  | .null => true
  | .bool b => !b
  | .number n => n.isZero
  | .text s => s.isEmpty
  | .array items => items.isEmpty
  | .object members => members.isEmpty

/-- A number or a truth value, which counts as 0 or 1. -/
def number? : Json → Option Number
  | .number n => some n
  | .bool b => some (.int (if b then 1 else 0))
  | _ => none

mutual

/-- The value as messages show it inside other values: text in quotes. -/
def shown : Json → String
  | .null => "None"
  | .bool b => if b then "True" else "False"
  | .number n => n.text
  | .text s => quotedText s
  | .array items => "[" ++ ", ".intercalate (shownItems items) ++ "]"
  | .object members => "\x7b" ++ ", ".intercalate (shownMembers members) ++ "\x7d"

def shownItems : List Json → List String
  | [] => []
  | v :: rest => shown v :: shownItems rest

def shownMembers : List (String × Json) → List String
  | [] => []
  | (n, v) :: rest => (quotedText n ++ ": " ++ shown v) :: shownMembers rest

end

/-- The value as messages show it on its own: text as it stands. -/
def display : Json → String
  | .text s => s
  | v => v.shown

mutual

/-- Equality of values, where numbers and truth values are compared by what they count. -/
def same : Json → Json → Bool
  | .null, .null => true
  | .text s, .text t => s == t
  | .array xs, .array ys => sameItems xs ys
  | .object xs, .object ys => xs.length == ys.length && sameMembers xs ys
  | v, w =>
    match v.number?, w.number? with
    | some m, some n => m.eqv n
    | _, _ => false

def sameItems : List Json → List Json → Bool
  | [], [] => true
  | v :: vs, w :: ws => same v w && sameItems vs ws
  | _, _ => false

def sameMembers : List (String × Json) → List (String × Json) → Bool
  | [], _ => true
  | (n, v) :: rest, others =>
    (match Entries.find? n others with
      | some w => same v w
      | none => false) && sameMembers rest others

end

end Json

end CohortAnalytics
