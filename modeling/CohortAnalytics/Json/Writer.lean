import CohortAnalytics.Json.Basic
import CohortAnalytics.Text.Characters

/-!
JSON text in ASCII. `canonical` has one form per value up to the order of members: no blanks and
names in order of their code points at every depth.
-/

namespace CohortAnalytics

namespace Json

/-- Characters beyond the first plane take two units. -/
def escapeCode (n : Nat) : List Char :=
  if n < 0x10000 then '\\' :: 'u' :: hexDigits 4 n
  else
    '\\' :: 'u' :: hexDigits 4 (0xd800 + (n - 0x10000) / 0x400) ++
      '\\' :: 'u' :: hexDigits 4 (0xdc00 + (n - 0x10000) % 0x400)

def escapeChar (c : Char) : List Char :=
  if c = '"' ∨ c = '\\' then ['\\', c]
  else if c = '\n' then ['\\', 'n']
  else if c = '\r' then ['\\', 'r']
  else if c = '\t' then ['\\', 't']
  else if c = '\x08' then ['\\', 'b']
  else if c = '\x0c' then ['\\', 'f']
  else if 0x20 ≤ c.toNat ∧ c.toNat ≤ 0x7e then [c]
  else escapeCode c.toNat

def quote (s : String) : List Char := '"' :: s.toList.flatMap escapeChar ++ ['"']

def numberLayout : FloatLayout := { notANumber := "NaN", infinite := "Infinity" }

def writeNumber : Number → List Char
  | .int n => (toString n).toList
  | .float x => numberLayout.write x

structure Gaps where
  item : List Char := []
  value : List Char := []

mutual

def write (g : Gaps) : Json → List Char
  | .null => "null".toList
  | .bool b => (if b then "true" else "false").toList
  | .number n => writeNumber n
  | .text s => quote s
  | .array items => '[' :: writeItems g items ++ [']']
  | .object members => '{' :: writeMembers g members ++ ['}']

def writeItems (g : Gaps) : List Json → List Char
  | [] => []
  | [v] => write g v
  | v :: rest => write g v ++ ',' :: g.item ++ writeItems g rest

def writeMembers (g : Gaps) : List (String × Json) → List Char
  | [] => []
  | [(n, v)] => quote n ++ ':' :: g.value ++ write g v
  | (n, v) :: rest => quote n ++ ':' :: g.value ++ write g v ++ ',' :: g.item ++ writeMembers g rest

end

def sortMembers (members : List (String × Json)) : List (String × Json) :=
  members.mergeSort fun a b => a.1 ≤ b.1

mutual

/-- The same value with members in order of their names at every depth. -/
def sorted : Json → Json
  | .array items => .array (sortedItems items)
  | .object members => .object (sortMembers (sortedMembers members))
  | v => v

def sortedItems : List Json → List Json
  | [] => []
  | v :: rest => sorted v :: sortedItems rest

def sortedMembers : List (String × Json) → List (String × Json)
  | [] => []
  | (n, v) :: rest => (n, sorted v) :: sortedMembers rest

end

def compact (j : Json) : String := String.ofList (write {} j)

def canonical (j : Json) : String := String.ofList (write {} j.sorted)

/-- One blank after each comma and colon. -/
def spaced (j : Json) : String := String.ofList (write { item := [' '], value := [' '] } j)

mutual

/-- One value a line, two blanks deeper for each level. -/
def writeLines (depth : Nat) : Json → List Char
  | .array [] => ['[', ']']
  | .object [] => ['{', '}']
  | .array items =>
    '[' :: writeItemLines (depth + 1) items ++ '\n' :: List.replicate (2 * depth) ' ' ++ [']']
  | .object members =>
    '{' :: writeMemberLines (depth + 1) members ++ '\n' :: List.replicate (2 * depth) ' ' ++ ['}']
  | v => write {} v

def writeItemLines (depth : Nat) : List Json → List Char
  | [] => []
  | v :: rest =>
    '\n' :: List.replicate (2 * depth) ' ' ++ writeLines depth v ++
      (if rest.isEmpty then [] else [',']) ++ writeItemLines depth rest

def writeMemberLines (depth : Nat) : List (String × Json) → List Char
  | [] => []
  | (n, v) :: rest =>
    '\n' :: List.replicate (2 * depth) ' ' ++ quote n ++ ':' :: ' ' :: writeLines depth v ++
      (if rest.isEmpty then [] else [',']) ++ writeMemberLines depth rest

end

def lines (j : Json) : String := String.ofList (writeLines 0 j)

end Json

end CohortAnalytics
