import CohortAnalytics.Json.Writer

/-!
Members of an event's payload as the store shows them: text as it stands, everything else as
compact JSON text. A number is positional from a millionth up to twenty-one digits.
-/

namespace CohortAnalytics

namespace Payload

def numberLayout : FloatLayout :=
  { leastPoint := -5, greatestPoint := 21, positiveSign := [], exponentWidth := 1,
    notANumber := "NaN", infinite := "Infinity" }

def numberText : Number → List Char
  | .int n => (toString n).toList
  | .float x => numberLayout.write x

def escapeChar (c : Char) : List Char :=
  if c = '"' ∨ c = '\\' then ['\\', c]
  else if c = '\n' then ['\\', 'n']
  else if c = '\r' then ['\\', 'r']
  else if c = '\t' then ['\\', 't']
  else if c = '\x08' then ['\\', 'b']
  else if c = '\x0c' then ['\\', 'f']
  else if c.toNat < 0x20 then '\\' :: 'u' :: (hexDigits 4 c.toNat).map Char.toUpper
  else [c]

def quote (s : String) : List Char := '"' :: s.toList.flatMap escapeChar ++ ['"']

mutual

def write : Json → List Char
  | .null => "null".toList
  | .bool b => (if b then "true" else "false").toList
  | .number n => numberText n
  | .text s => quote s
  | .array items => '[' :: writeItems items ++ [']']
  | .object members => '{' :: writeMembers members ++ ['}']

def writeItems : List Json → List Char
  | [] => []
  | [v] => write v
  | v :: rest => write v ++ ',' :: writeItems rest

def writeMembers : List (String × Json) → List Char
  | [] => []
  | [(n, v)] => quote n ++ ':' :: write v
  | (n, v) :: rest => quote n ++ ':' :: write v ++ ',' :: writeMembers rest

end

/-- The text of a member; `none` where there is none, or it is null. -/
def member? (data : Json) (name : String) : Option String :=
  match data.get? name with
  | none => none
  | some .null => none
  | some (.text s) => some s
  | some v => some (String.ofList (write v))

end Payload

end CohortAnalytics
