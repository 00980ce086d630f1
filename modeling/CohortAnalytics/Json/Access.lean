import CohortAnalytics.Failure
import CohortAnalytics.Json.Basic

/-!
Looking into a document of which nothing is known beforehand. Where its shape does not allow the
look, the failure says how: a member that is not there, a value without members, or a value of a
kind for which the question has no answer.
-/

namespace CohortAnalytics

namespace Json

def holdsWord (word : List Char) : List Char → Bool
  | [] => word.isEmpty
  | c :: rest => word.isPrefixOf (c :: rest) || holdsWord word rest

def holds (name : String) : Json → Except Failure Bool
  | .object members => .ok (Entries.find? name members).isSome
  | .array items => .ok (items.any (same (.text name)))
  | .text s => .ok (holdsWord name.toList s.toList)
  | _ => .error .wrongKind

def member (name : String) : Json → Except Failure Json
  | .object members =>
    match Entries.find? name members with
    | some v => .ok v
    | none => .error (.missingKey name)
  | _ => .error .wrongKind

def memberOr (j : Json) (name : String) (default : Json) : Except Failure Json :=
  match j with
  | .object members => .ok ((Entries.find? name members).getD default)
  | _ => .error .missingMember

def names : Json → Except Failure (List String)
  | .object members => .ok (members.map Prod.fst)
  | _ => .error .missingMember

/-- The items of a list, the characters of a text or the names of an object. -/
def parts : Json → Except Failure (List Json)
  | .array items => .ok items
  | .text s => .ok (s.toList.map fun c => .text (String.singleton c))
  | .object members => .ok (members.map fun m => .text m.1)
  | _ => .error .wrongKind

def size (j : Json) : Except Failure Nat := j.parts.map List.length

def decideOrder (strict : Bool) : Option Ordering → Bool
  | some .lt => true
  | some .eq => !strict
  | _ => false

def textOrder (s t : String) : Ordering := if s < t then .lt else if s = t then .eq else .gt

mutual

/-- Whether one value is below another, or not above it where the comparison is not strict. Numbers
and truth values compare with each other, texts with texts, and lists with lists item by item. -/
def under (strict : Bool) : Json → Json → Except Failure Bool
  | .text s, .text t => .ok (decideOrder strict (some (textOrder s t)))
  | .array xs, .array ys => itemsBelow strict xs ys
  | v, w =>
    match v.number?, w.number? with
    | some m, some n => .ok (decideOrder strict (m.order? n))
    | _, _ => .error .wrongKind

def itemsBelow (strict : Bool) : List Json → List Json → Except Failure Bool
  | [], ys => .ok (!strict || !ys.isEmpty)
  | _ :: _, [] => .ok false
  | x :: xs, y :: ys => if same x y then itemsBelow strict xs ys else under strict x y

end

def isBelow (a b : Json) : Except Failure Bool := under true a b

def isAtMost (a b : Json) : Except Failure Bool := under false a b

def sum (items : List Json) : Except Failure Number :=
  items.foldlM (fun total j =>
    match j.number? with
    | none => .error .wrongKind
    | some n =>
      match total.add? n with
      | some total => .ok total
      | none => .error .beyondRange) (.int 0)

/-- Lists and objects cannot be looked up among values. -/
def isSimple : Json → Bool
  | .array _ => false
  | .object _ => false
  | _ => true

def isAmong (j : Json) (others : List Json) : Except Failure Bool :=
  if j.isSimple && others.all isSimple then .ok (others.any (same j)) else .error .wrongKind

def namesText (ns : List String) : String := "[" ++ ", ".intercalate (ns.map quotedText) ++ "]"

end Json

end CohortAnalytics
