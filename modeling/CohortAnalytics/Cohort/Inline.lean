import CohortAnalytics.Cohort.Predicate
import CohortAnalytics.Json.Reader

/-!
Predicates with their values written into the text, and such text read back. A quote inside a text
literal is doubled; nothing else is escaped.
-/

namespace CohortAnalytics

def quoteText (s : String) : String :=
  String.ofList ('\x27' ::
    s.toList.flatMap (fun c => if c = '\x27' then ['\x27', '\x27'] else [c]) ++ ['\x27'])

/-- Numbers and truth values stand bare, everything else as quoted text. -/
def quoteLiteral : Json → String
  | .bool b => if b then "true" else "false"
  | .number n => n.text
  | v => quoteText v.display

namespace Condition

def inline (c : Condition) : String := withLiterals c.column c.op (c.params.map quoteLiteral)

end Condition

namespace Predicate

def inline (p : Predicate) : String := joined (p.map Condition.inline)

end Predicate

namespace Inline

inductive Token
  | word (s : String)
  | number (x : Float)
  | text (s : String)
  | symbol (c : Char)
  deriving DecidableEq

def isWordChar (c : Char) : Bool := c.isAlpha || c == '_'

def isNumberChar (c : Char) : Bool := c.isDigit || c == '.' || c == '-' || c == '+' || c == 'e'

/-- The text up to the quote that ends it: the first that is not doubled. -/
def untilQuote : List Char → Option (List Char × List Char)
  | [] => none
  | '\x27' :: '\x27' :: rest => (untilQuote rest).map fun (s, rest) => ('\x27' :: s, rest)
  | '\x27' :: rest => some ([], rest)
  | c :: rest => (untilQuote rest).map fun (s, rest) => (c :: s, rest)

def token? : List Char → Option (Token × List Char)
  | [] => none
  | c :: rest =>
    if c = '\x27' then (untilQuote rest).map fun (s, rest) => (.text (String.ofList s), rest)
    else if isWordChar c then
      some (.word (String.ofList ((c :: rest).takeWhile isWordChar)), rest.dropWhile isWordChar)
    else if isNumberChar c then
      (readFloat? (String.ofList ((c :: rest).takeWhile isNumberChar))).map
        fun x => (.number x, rest.dropWhile isNumberChar)
    else some (.symbol c, rest)

/-- The tokens of a text between blanks; a turn takes at least one character. -/
def tokensIn : Nat → List Char → Option (List Token)
  | 0, cs => if cs.isEmpty then some [] else none
  | turns + 1, cs =>
    match cs.dropWhile (· == ' ') with
    | [] => some []
    | cs => do
      let (t, rest) ← token? cs
      return t :: (← tokensIn turns rest)

def tokens? (s : String) : Option (List Token) := tokensIn s.toList.length.succ s.toList

def textCondition? (name op value : String) : Option Condition := do
  let column ← TextColumn.all.find? (·.name == name)
  if op = "=" then some (.textIs column value)
  else if op = "LIKE" then some (.textLike column value)
  else none

def numberCondition? (name : String) (test : NumberTest) : Option Condition :=
  (NumberColumn.all.find? (·.name == name)).map (.number · test)

def flagOf? (word : String) : Option Bool :=
  if word = "true" then some true else if word = "false" then some false else none

/-- One condition from the front of the tokens. -/
def condition? : List Token → Option (Condition × List Token)
  | .word name :: .word "BETWEEN" :: .number x :: .word "AND" :: .number y :: rest =>
    (numberCondition? name (.between x y)).map (·, rest)
  | .word name :: .word "LIKE" :: .text s :: .word "ESCAPE" :: .text "\\" :: rest =>
    (textCondition? name "LIKE" s).map (·, rest)
  | .word name :: .symbol '=' :: .text s :: rest => (textCondition? name "=" s).map (·, rest)
  | .word name :: .symbol '=' :: .number x :: rest =>
    (numberCondition? name (.equals x)).map (·, rest)
  | .word name :: .symbol '>' :: .number x :: rest =>
    (numberCondition? name (.above x)).map (·, rest)
  | .word name :: .symbol '<' :: .number x :: rest =>
    (numberCondition? name (.below x)).map (·, rest)
  | .word name :: .symbol '=' :: .word value :: rest =>
    if name = deadClickColumn then (flagOf? value).map (.deadClickIs ·, rest) else none
  | _ => none

/-- Conditions joined by AND; a turn takes at least one token. -/
def conditionsIn : Nat → List Token → Option Predicate
  | 0, _ => none
  | turns + 1, ts => do
    match ← condition? ts with
    | (c, []) => some [c]
    | (c, .word "AND" :: rest) => return c :: (← conditionsIn turns rest)
    | _ => none

def read? (s : String) : Option Predicate := do
  if s = Predicate.everything then some []
  else
    let ts ← tokens? s
    conditionsIn ts.length.succ ts

end Inline

end CohortAnalytics
