import CohortAnalytics.Number.Reading

/-!
Text cast to a real number as the store does it: ASCII digits, an exponent, and spaces around.
-/

namespace CohortAnalytics

namespace Cast

def isSpace (c : Char) : Bool := c == ' ' || ('\t' ≤ c && c ≤ '\r')

def digits (cs : List Char) : List Nat × List Char :=
  ((cs.takeWhile Char.isDigit).filterMap asciiDigit?, cs.dropWhile Char.isDigit)

def exponent? : List Char → Option (Int × List Char)
  | c :: rest =>
    if c = 'e' ∨ c = 'E' then
      let (negative, rest) := Reading.sign rest
      match digits rest with
      | ([], _) => none
      | (ds, rest) => some (if negative then -(Reading.value ds : Int) else Reading.value ds, rest)
    else some (0, c :: rest)
  | [] => some (0, [])

/-- The number at the front of a text: digits on one side of a point at least, or a name. -/
def number? (negative : Bool) (cs : List Char) : Option (Float × List Char) := do
  let sign (x : Float) : Float := if negative then -x else x
  let named := [("infinity", (1.0 / 0.0 : Float)), ("inf", 1.0 / 0.0), ("nan", 0.0 / 0.0)].find?
    fun (word, _) => word.toList.isPrefixOf (cs.map Char.toLower)
  match named with
  | some (word, x) => return (sign x, cs.drop word.length)
  | none =>
    let (whole, rest) := digits cs
    let (fraction, rest) := match rest with
      | '.' :: more => digits more
      | _ => ([], rest)
    if whole.isEmpty && fraction.isEmpty then none
    let (e, rest) ← exponent? rest
    return (Binary.ofDecimal negative (Reading.value (whole ++ fraction)) (e - fraction.length), rest)

/-- The number that a text writes, spaces around it allowed; `none` for any other text. -/
def real? (s : String) : Option Float := do
  let cs := s.toList.dropWhile isSpace
  let cs := match cs with
    | '+' :: rest => rest
    | _ => cs
  let (x, rest) ← match cs with
    | '-' :: rest => number? true rest
    | rest => number? false rest
  if rest.all isSpace then some x else none

end Cast

end CohortAnalytics
