import CohortAnalytics.Query.Filter

/-!
Filters that a caller writes as text: comparisons of a column with a placeholder, joined by AND and
OR, with brackets. AND binds tighter than OR. Any other text has no meaning.
-/

namespace CohortAnalytics

namespace Written

inductive Token
  | word (s : String)
  | symbol (s : String)
  deriving DecidableEq

def isWordChar (c : Char) : Bool := c.isAlphanum || c == '_'

def isCompareChar (c : Char) : Bool := c == '=' || c == '!' || c == '<' || c == '>'

def isGap (c : Char) : Bool := c == ' ' || c == '\t' || c == '\n' || c == '\r'

/-- A turn takes at least one character. -/
def tokensIn : Nat → List Char → List Token
  | 0, _ => []
  | turns + 1, cs =>
    match cs.dropWhile isGap with
    | [] => []
    | c :: rest =>
      if isWordChar c then
        .word (String.ofList ((c :: rest).takeWhile isWordChar)) ::
          tokensIn turns (rest.dropWhile isWordChar)
      else if isCompareChar c then
        .symbol (String.ofList ((c :: rest).takeWhile isCompareChar)) ::
          tokensIn turns (rest.dropWhile isCompareChar)
      else .symbol (String.singleton c) :: tokensIn turns rest

def tokens (s : String) : List Token := tokensIn s.toList.length s.toList

structure Rest where
  tokens : List Token
  params : List Json

def upper (s : String) : String := String.ofList (s.toList.map Char.toUpper)

def isWord (word : String) : Token → Bool
  | .word s => upper s == word
  | .symbol _ => false

def compare? (name symbol : String) (v : Json) : Option EventTest := do
  let column ← EventColumn.all.find? (·.name == name)
  let op ← (CompareOp.symbols.find? (·.1 == symbol)).map Prod.snd
  if column.accepts v then some (.compare column op v) else none

mutual

def readTest? : Nat → Rest → Option (EventTest × Rest)
  | 0, _ => none
  | turns + 1, rest =>
    match rest.tokens, rest.params with
    | .symbol "(" :: tokens, params => do
      match ← readClause? turns ⟨tokens, params⟩ with
      | (c, ⟨.symbol ")" :: tokens, params⟩) => return (.grouped c, ⟨tokens, params⟩)
      | _ => none
    | .word name :: .symbol symbol :: .symbol "?" :: tokens, v :: params =>
      (compare? name symbol v).map (·, ⟨tokens, params⟩)
    | _, _ => none

def readClause? : Nat → Rest → Option (Clause × Rest)
  | 0, _ => none
  | turns + 1, rest => do
    let (t, rest) ← readTest? turns rest
    match rest.tokens with
    | [] => return ([[t]], rest)
    | next :: tokens =>
      if isWord "AND" next then
        let (c, rest) ← readClause? turns ⟨tokens, rest.params⟩
        return (Clause.followedBy [[t]] c, rest)
      else if isWord "OR" next then
        let (c, rest) ← readClause? turns ⟨tokens, rest.params⟩
        return ([t] :: c, rest)
      else return ([[t]], rest)

end

/-- All tokens and all parameters have to be used. -/
def clause? (text : String) (params : List Json) : Option Clause :=
  let ts := tokens text
  match readClause? (2 * ts.length + 1) ⟨ts, params⟩ with
  | some (c, ⟨[], []⟩) => some c
  | _ => none

end Written

namespace Filter

def written (text : String) (params : List Json) : Filter :=
  ⟨⟨text, params.map .value⟩, Written.clause? text params⟩

end Filter

end CohortAnalytics
