/-!
Text patterns: `%` stands for any text, `_` for any one character, and a backslash takes the
character after it as it is.
-/

namespace CohortAnalytics

namespace Like

inductive Piece
  | char (c : Char)
  | anyChar
  | anyText
  deriving DecidableEq

def pieces : List Char → List Piece
  | [] => []
  | ['\\'] => [.char '\\']
  | '\\' :: c :: rest => .char c :: pieces rest
  | '%' :: rest => .anyText :: pieces rest
  | '_' :: rest => .anyChar :: pieces rest
  | c :: rest => .char c :: pieces rest

/-- Some end of the text satisfies `p`. -/
def someTail (p : List Char → Bool) : List Char → Bool
  | [] => p []
  | c :: rest => p (c :: rest) || someTail p rest

/-- The whole text is of the pattern. -/
def matchPieces : List Piece → List Char → Bool
  | [], text => text.isEmpty
  | .char c :: ps, text =>
    match text with
    | d :: rest => c == d && matchPieces ps rest
    | [] => false
  | .anyChar :: ps, text =>
    match text with
    | _ :: rest => matchPieces ps rest
    | [] => false
  | .anyText :: ps, text => someTail (matchPieces ps) text

def matchesText (pattern text : String) : Bool := matchPieces (pieces pattern.toList) text.toList

def escapeChar (c : Char) : List Char :=
  if c = '\\' ∨ c = '%' ∨ c = '_' then ['\\', c] else [c]

/-- A text as a pattern that only the text itself is of. -/
def escape (s : String) : String := String.ofList (s.toList.flatMap escapeChar)

/-- The pattern of the texts that hold `s`. -/
def containing (s : String) : String := "%" ++ escape s ++ "%"

end Like

end CohortAnalytics
