import CohortAnalytics.Json.Basic
import CohortAnalytics.Number.Reading
import CohortAnalytics.Text.Characters

/-!
JSON text read into a value. A number with a point or an exponent is a float, any other an integer;
`NaN` and the infinities may be written. Of two members with one name the later counts.
-/

namespace CohortAnalytics

namespace Json

def isGap (c : Char) : Bool := c = ' ' || c = '\t' || c = '\n' || c = '\r'

def unit? : List Char → Option (Nat × List Char)
  | a :: b :: c :: d :: rest => do
    let n := (← hexDigit? a) * 4096 + (← hexDigit? b) * 256 + (← hexDigit? c) * 16 + (← hexDigit? d)
    return (n, rest)
  | _ => none

/-- One escaped character, after the backslash. Two units of a pair make one character. -/
def escape? : List Char → Option (Char × List Char)
  | 'u' :: rest => do
    let (high, rest) ← unit? rest
    if 0xd800 ≤ high ∧ high < 0xdc00 then
      match rest with
      | '\\' :: 'u' :: more =>
        let (low, more) ← unit? more
        if 0xdc00 ≤ low ∧ low < 0xe000 then
          return (Char.ofNat (0x10000 + (high - 0xd800) * 0x400 + (low - 0xdc00)), more)
        else none
      | _ => none
    else return (Char.ofNat high, rest)
  | 'n' :: rest => some ('\n', rest)
  | 'r' :: rest => some ('\r', rest)
  | 't' :: rest => some ('\t', rest)
  | 'b' :: rest => some ('\x08', rest)
  | 'f' :: rest => some ('\x0c', rest)
  | c :: rest => if c = '"' ∨ c = '\\' ∨ c = '/' then some (c, rest) else none
  | [] => none

/-- The characters up to the closing quote. Each turn takes at least one character. -/
def readQuoted : Nat → List Char → Option (List Char × List Char)
  | 0, _ => none
  | fuel + 1, cs =>
    match cs with
    | '"' :: rest => some ([], rest)
    | '\\' :: rest => do
      let (c, rest) ← escape? rest
      let (more, rest) ← readQuoted fuel rest
      return (c :: more, rest)
    | c :: rest =>
      if c.toNat < 0x20 then none
      else do
        let (more, rest) ← readQuoted fuel rest
        return (c :: more, rest)
    | [] => none

def asciiDigits (cs : List Char) : List Nat × List Char :=
  ((cs.takeWhile Char.isDigit).filterMap asciiDigit?, cs.dropWhile Char.isDigit)

def readFraction? : List Char → Option (List Nat × List Char)
  | '.' :: rest =>
    match asciiDigits rest with
    | ([], _) => none
    | (ds, rest) => some (ds, rest)
  | rest => some ([], rest)

def readExponent? : List Char → Option (Int × List Char)
  | c :: rest =>
    if c = 'e' ∨ c = 'E' then
      let (negative, rest) := Reading.sign rest
      match asciiDigits rest with
      | ([], _) => none
      | (ds, rest) => some (if negative then -(Reading.value ds : Int) else Reading.value ds, rest)
    else some (0, c :: rest)
  | [] => some (0, [])

def readUnsigned? (negative : Bool) (cs : List Char) : Option (Number × List Char) := do
  let (whole, rest) := asciiDigits cs
  if whole.isEmpty || (whole.head? == some 0 && 1 < whole.length) then none
  let (fraction, tail) ← readFraction? rest
  let (e, tail) ← readExponent? tail
  if tail.length = rest.length then
    return (.int (if negative then -(Reading.value whole : Int) else Reading.value whole), rest)
  else
    return (.float (Binary.ofDecimal negative (Reading.value (whole ++ fraction))
      (e - fraction.length)), tail)

def after? (word : String) (cs : List Char) : Option (List Char) :=
  if word.toList.isPrefixOf cs then some (cs.drop word.length) else none

def constants : List (String × Json) :=
  [("null", .null), ("true", .bool true), ("false", .bool false), ("NaN", .float (0.0 / 0.0)),
    ("Infinity", .float (1.0 / 0.0)), ("-Infinity", .float (-1.0 / 0.0))]

def readScalar? (cs : List Char) : Option (Json × List Char) :=
  match constants.findSome? fun (word, v) => (after? word cs).map ((v, ·)) with
  | some found => some found
  | none =>
    match cs with
    | '-' :: rest => (readUnsigned? true rest).map fun (n, rest) => (.number n, rest)
    | rest => (readUnsigned? false rest).map fun (n, rest) => (.number n, rest)

mutual

def readValue : Nat → List Char → Option (Json × List Char)
  | 0, _ => none
  | fuel + 1, cs =>
    match cs.dropWhile isGap with
    | '"' :: rest => (readQuoted rest.length.succ rest).map fun (s, rest) => (.text (String.ofList s), rest)
    | '[' :: rest =>
      match rest.dropWhile isGap with
      | ']' :: rest => some (.array [], rest)
      | rest => (readItems fuel rest).map fun (items, rest) => (.array items, rest)
    | '{' :: rest =>
      match rest.dropWhile isGap with
      | '}' :: rest => some (.object [], rest)
      | rest => (readMembers fuel [] rest).map fun (members, rest) => (.object members, rest)
    | rest => readScalar? rest

def readItems : Nat → List Char → Option (List Json × List Char)
  | 0, _ => none
  | fuel + 1, cs => do
    let (v, rest) ← readValue fuel cs
    match rest.dropWhile isGap with
    | ',' :: rest =>
      let (more, rest) ← readItems fuel rest
      return (v :: more, rest)
    | ']' :: rest => return ([v], rest)
    | _ => none

def readMembers : Nat → List (String × Json) → List Char → Option (List (String × Json) × List Char)
  | 0, _, _ => none
  | fuel + 1, members, cs => do
    match cs.dropWhile isGap with
    | '"' :: rest =>
      let (name, rest) ← readQuoted rest.length.succ rest
      match rest.dropWhile isGap with
      | ':' :: rest =>
        let (v, rest) ← readValue fuel rest
        let members := Entries.put (String.ofList name) v members
        match rest.dropWhile isGap with
        | ',' :: rest => readMembers fuel members rest
        | '}' :: rest => return (members, rest)
        | _ => none
      | _ => none
    | _ => none

end

def read? (s : String) : Option Json :=
  let cs := s.toList
  match readValue (2 * cs.length + 2) cs with
  | some (v, rest) => if rest.all isGap then some v else none
  | none => none

end Json

end CohortAnalytics
