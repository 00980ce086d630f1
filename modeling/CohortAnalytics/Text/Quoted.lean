import CohortAnalytics.Text.Characters
import CohortAnalytics.Text.Printable

/-!
Text in quotes, as messages show it: double quotes only where the text holds single ones and no
double ones, and hidden characters by their number.
-/

namespace CohortAnalytics

def quotedChar (mark c : Char) : List Char :=
  if c = mark ∨ c = '\\' then ['\\', c]
  else if c = '\n' then ['\\', 'n']
  else if c = '\r' then ['\\', 'r']
  else if c = '\t' then ['\\', 't']
  else if isPrintable c then [c]
  else if c.toNat < 0x100 then '\\' :: 'x' :: hexDigits 2 c.toNat
  else if c.toNat < 0x10000 then '\\' :: 'u' :: hexDigits 4 c.toNat
  else '\\' :: 'U' :: hexDigits 8 c.toNat

def quotedText (s : String) : String :=
  let mark := if s.toList.contains '\x27' && !s.toList.contains '"' then '"' else '\x27'
  String.ofList (mark :: s.toList.flatMap (quotedChar mark) ++ [mark])

end CohortAnalytics
