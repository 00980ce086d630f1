import CohortAnalytics.Event.Moment
import CohortAnalytics.Json.Basic
import CohortAnalytics.Json.Issue

/-!
Values of collected events as they arrive. Numbers may come as text, truth values as numbers or
words; each type has its own way of being wrong.
-/

namespace CohortAnalytics

-- Powers are the ones of core, whatever else is in scope.
attribute [local instance (high)] instPowNat

namespace Loose

/-- Blanks around a number. -/
def isGap (c : Char) : Bool := isBlank c && !(0x1c ≤ c.toNat && c.toNat ≤ 0x1f)

def trimGaps (cs : List Char) : List Char :=
  ((cs.dropWhile isGap).reverse.dropWhile isGap).reverse

def hasDouble : List Char → Bool
  | '_' :: '_' :: _ => true
  | _ :: rest => hasDouble rest
  | [] => false

/-- Underscores may stand alone and inside only. -/
def dropUnderscores? (cs : List Char) : Option (List Char) :=
  if cs.head? = some '_' ∨ cs.getLast? = some '_' ∨ hasDouble cs then none
  else some (cs.filter (· ≠ '_'))

/-- A plus sign goes, unless a minus sign follows it. -/
def dropPlus? : List Char → Option (List Char)
  | '+' :: '-' :: _ => none
  | '+' :: rest => some rest
  | cs => some cs

/-- The rest of a number after a zero at its front, with one zero kept where no other digit
follows. -/
def afterZeros? (last : Char) : List Char → Option (List Char)
  | [] => some [last]
  | c :: rest =>
    if c = '0' ∨ (c = '_' ∧ last ≠ '_') then afterZeros? c rest
    else if '1' ≤ c ∧ c ≤ '9' then some (c :: rest)
    else if c = '.' then some (last :: c :: rest)
    else none

def dropZeros? : List Char → Option (List Char)
  | [] => none
  | c :: rest =>
    if c = '0' then afterZeros? c rest
    else if ('1' ≤ c ∧ c ≤ '9') ∨ c = '-' then some (c :: rest)
    else none

/-- A decimal point with nothing but zeros after it goes. -/
def dropPoint (cs : List Char) : List Char :=
  let whole := cs.takeWhile (· ≠ '.')
  if (cs.drop (whole.length + 1)).all (· = '0') then whole else cs

def signedDigits? (cs : List Char) : Option Int :=
  let (negative, ds) := match cs with
    | '-' :: rest => (true, rest)
    | rest => (false, rest)
  if ds.isEmpty || !(ds.all fun c => (asciiDigit? c).isSome) then none
  else
    let n := Reading.value (ds.filterMap asciiDigit?)
    some (if negative then -(n : Int) else n)

/-- Digits of an integer, at most this many. -/
def longestInteger : Nat := 4300

def integerText (s : String) : Checked Int :=
  let cleaned := do
    let cs ← dropZeros? (← dropPlus? (trimGaps s.toList))
    dropUnderscores? (dropPoint cs)
  match cleaned with
  | none => .wrong .unreadableInteger
  | some cs =>
    if longestInteger < cs.length then .wrong .integerTooLong
    else match signedDigits? cs with
      | some n => .ok n
      | none => .wrong .unreadableInteger

def integerFloat (x : Float) : Checked Int :=
  if !x.isFinite then .wrong .notFinite
  else match wholeFloat? x with
    | none => .wrong .fractionalInteger
    | some n => if n.natAbs < 2 ^ (63 : Nat) then .ok n else .wrong .integerTooLong

def integer : Json → Checked Int
  | .number (.int n) => .ok n
  | .number (.float x) => integerFloat x
  | .bool b => .ok (if b then 1 else 0)
  | .text s => integerText s
  | _ => .wrong .notInteger

/-- A decimal number in ASCII, or a name of a value that is not finite. -/
def plainFloat? (cs : List Char) : Option Float :=
  let isPlain := cs.all fun c => c.toNat < 128 && c ≠ '_' && !isBlank c
  if isPlain then readFloat? (String.ofList cs) else none

def realText (s : String) : Checked Float :=
  let cs := trimGaps s.toList
  match plainFloat? cs with
  | some x => .ok x
  | none =>
    match (dropUnderscores? cs).bind plainFloat? with
    | some x => .ok x
    | none => .wrong .unreadableNumber

def real : Json → Checked Float
  | .number n =>
    match n.toFloat? with
    | some x => .ok x
    | none => .wrong .notNumber
  | .bool b => .ok (if b then 1 else 0)
  | .text s => realText s
  | _ => .wrong .notNumber

def trueWords : List String := ["1", "on", "t", "true", "y", "yes"]

def falseWords : List String := ["0", "off", "f", "false", "n", "no"]

def truthText (s : String) : Checked Bool :=
  let word := String.ofList (s.toList.map Char.toLower)
  if trueWords.contains word then .ok true
  else if falseWords.contains word then .ok false
  else .wrong .unreadableTruthValue

def truthInt (n : Int) : Checked Bool :=
  if n = 0 then .ok false else if n = 1 then .ok true else .wrong .unreadableTruthValue

/-- An integer of more than 63 bits is no truth value at all. -/
def truth : Json → Checked Bool
  | .bool b => .ok b
  | .number (.int n) => if n.natAbs < 2 ^ (63 : Nat) then truthInt n else .wrong .notTruthValue
  | .number (.float x) =>
    match integerFloat x with
    | .ok n => truthInt n
    | .error _ => .wrong .notTruthValue
  | .text s => truthText s
  | _ => .wrong .notTruthValue

def moment : Json → Checked Stamp
  | .text s =>
    match Moment.read? s with
    | some t => .ok t
    | none => .wrong .unreadableTimestamp
  | .number n =>
    match Moment.ofNumber? n with
    | some t => .ok t
    | none => .wrong .timestampBeyondRange
  | _ => .wrong .notTimestamp

def listed {α : Type} (ofName? : String → Option α) : Json → Checked α
  | .text s =>
    match ofName? s with
    | some a => .ok a
    | none => .wrong .notListed
  | _ => .wrong .notListed

def asObject : Json → Checked (List (String × Json))
  | .object members => .ok members
  | _ => .wrong .notObject

end Loose

end CohortAnalytics
