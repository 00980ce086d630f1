import CohortAnalytics.Cohort.Like
import CohortAnalytics.Cohort.Predicate
import CohortAnalytics.Cohort.RuleValue

/-!
Rules compiled into a predicate. A rule that cannot be compiled is skipped with a warning and
leaves the other rules as they are; only an integer beyond the range of floats fails the whole.
-/

namespace CohortAnalytics

inductive SkipReason
  | malformed (issues : Nat)
  | unsupportedField (name : String)
  | unsupportedOperator (name : String)
  | containsOnNumber
  | notANumber (value : Scalar)
  | secondMissing
  | secondNotANumber (value : Scalar)
  | notForText (op : RuleOperator)
  deriving DecidableEq

namespace SkipReason

def text : SkipReason → String
  | .malformed n => "malformed rule: " ++ toString n ++ " error(s)"
  | .unsupportedField name => "unsupported field " ++ quotedText name
  | .unsupportedOperator name => "unsupported operator " ++ quotedText name
  | .containsOnNumber => "contains is not valid on a numeric field"
  | .notANumber v => "value " ++ v.toJson.shown ++ " is not a number"
  | .secondMissing => "between requires value2"
  | .secondNotANumber v => "value2 " ++ v.toJson.shown ++ " is not a number"
  | .notForText op => op.name ++ " is not valid on a text field"

end SkipReason

inductive RuleFailure
  | skipped (reason : SkipReason)
  | beyondRange
  deriving DecidableEq

structure CompileWarning where
  index : Nat
  field : String
  reason : SkipReason
  deriving DecidableEq

namespace CompileWarning

def text (w : CompileWarning) : String :=
  "rule " ++ toString w.index ++ " (" ++ w.field ++ "): " ++ w.reason.text

end CompileWarning

structure Compiled where
  predicate : Predicate := []
  warnings : List CompileWarning := []

inductive RawRule
  | checked (r : Rule)
  | loose (j : Json)

namespace RawRule

def field : RawRule → String
  | .checked r => r.field
  | .loose (.object members) => ((Entries.find? "field" members).map Json.display).getD "?"
  | .loose _ => "?"

end RawRule

namespace Rule

def valueOf (s : Scalar) : Except RuleFailure RuleValue :=
  match RuleValue.ofScalar? s with
  | some v => .ok v
  | none => .error .beyondRange

def numberOf (reason : SkipReason) (v : RuleValue) : Except RuleFailure Float :=
  match v.asNumber? with
  | some x => .ok x
  | none => .error (.skipped reason)

/-- Bounds may be given in either order. -/
def betweenTest (x : Float) (r : Rule) : Except RuleFailure NumberTest := do
  match r.value2 with
  | none => .error (.skipped .secondMissing)
  | some second =>
    let y ← numberOf (.secondNotANumber second) (← valueOf second)
    return if y < x then .between y x else .between x y

def numberTest (op : RuleOperator) (r : Rule) : Except RuleFailure NumberTest := do
  if op = .contains then .error (.skipped .containsOnNumber)
  let x ← numberOf (.notANumber r.value) (← valueOf r.value)
  match op with
  | .between => betweenTest x r
  | .greaterThan => return .above x
  | .lessThan => return .below x
  | _ => return .equals x

def textCondition (column : TextColumn) (op : RuleOperator) (r : Rule) :
    Except RuleFailure Condition := do
  if op = .equals then return .textIs column (← valueOf r.value).asText
  else if op = .contains then return .textLike column (Like.containing (← valueOf r.value).asText)
  else .error (.skipped (.notForText op))

/-- `true` in any case, with blanks around it, is true and all else false. -/
def flagOf (v : RuleValue) : Bool :=
  (trimBlank v.asText.toList).map Char.toLower == "true".toList

def compile (r : Rule) : Except RuleFailure Condition := do
  match CohortField.lookup? r.field with
  | none => .error (.skipped (.unsupportedField r.field))
  | some field =>
    match RuleOperator.ofName? r.operator with
    | none => .error (.skipped (.unsupportedOperator r.operator))
    | some op =>
      match field.target with
      | .deadClick => return .deadClickIs (flagOf (← valueOf r.value))
      | .number column => return .number column (← numberTest op r)
      | .text column => textCondition column op r

end Rule

namespace RawRule

def compile : RawRule → Except RuleFailure Condition
  | .checked r => r.compile
  | .loose j =>
    match Rule.ofJson j with
    | .ok r => r.compile
    | .error issues => .error (.skipped (.malformed issues.length))

end RawRule

namespace Compiled

def prependTo (compiled : Compiled) (index : Nat) (raw : RawRule) : Option Compiled :=
  match raw.compile with
  | .ok c => some { compiled with predicate := c :: compiled.predicate }
  | .error (.skipped reason) =>
    some { compiled with warnings := ⟨index, raw.field, reason⟩ :: compiled.warnings }
  | .error .beyondRange => none

/-- Rules from `index` on; `none` where one holds an integer beyond the range of floats. -/
def ofRulesFrom? : Nat → List RawRule → Option Compiled
  | _, [] => some {}
  | index, raw :: rest => do (← ofRulesFrom? (index + 1) rest).prependTo index raw

def ofRules? (rules : List RawRule) : Option Compiled := ofRulesFrom? 0 rules

end Compiled

/-- The rules that loose data holds: nothing holds none, a text one a character, an object one a
name. A number or a truth value holds no rules and `none` says so. -/
def looseRules? (j : Json) : Option (List RawRule) :=
  if j.isNothing then some []
  else
    match j with
    | .array items => some (items.map .loose)
    | .text s => some (s.toList.map fun c => .loose (.text (String.singleton c)))
    | .object members => some (members.map fun m => .loose (.text m.1))
    | _ => none

end CohortAnalytics
