import CohortAnalytics.Entries
import CohortAnalytics.Number.Reading
import CohortAnalytics.Text.Quoted

/-!
The arguments of a command, read against the switches it knows. A long switch may be cut short as
long as no other switch goes on from it; its value follows it or stands behind an equals sign.
Nothing but switches and their values is accepted.
-/

namespace CohortAnalytics

namespace CommandLine

inductive Effect (ω : Type)
  | mark (set : ω → ω)
  | text (set : String → ω → ω)
  | whole (set : Int → ω → ω)
  | help

structure Switch (ω : Type) where
  names : List String
  effect : Effect ω
  about : String

inductive Refusal
  | helpWanted
  | ambiguous (argument : String) (names : List String)
  | valueMissing (name : String)
  | notWhole (name value : String)
  | valueUnwanted (name value : String)
  | unrecognized (arguments : List String)
  deriving DecidableEq

namespace Refusal

def message : Refusal → String
  | .helpWanted => ""
  | .ambiguous argument names => argument ++ " may stand for " ++ ", ".intercalate names
  | .valueMissing name => name ++ " needs a value"
  | .notWhole name value => name ++ " needs a whole number, not " ++ quotedText value
  | .valueUnwanted name value => name ++ " takes no value, but got " ++ quotedText value
  | .unrecognized arguments => "unrecognized arguments: " ++ " ".intercalate arguments

def exitCode : Refusal → Nat
  | .helpWanted => 0
  | _ => 2

end Refusal

variable {ω : Type}

inductive Token (ω : Type)
  | plain (text : String)
  /-- two dashes, after which every argument is plain -/
  | marker
  | switch (s : Switch ω) (name : String) (value : Option String)
  /-- a switch of one letter, with more behind it -/
  | letter (s : Switch ω) (c : Char) (more : List Char)
  | unknown (text : String)

abbrev Switches (ω : Type) := Entries (Switch ω)

def Switches.named (ss : List (Switch ω)) : Switches ω :=
  ss.flatMap fun s => s.names.map fun n => (n, s)

namespace Token

/-- What stands before the first equals sign, and what behind it if there is one. -/
def cutAtEquals (cs : List Char) : List Char × Option String :=
  match cs.dropWhile (· ≠ '=') with
  | _ :: value => (cs.takeWhile (· ≠ '='), some (String.ofList value))
  | [] => (cs, none)

/-- A dash and a number with or without a point; a line end behind it does no harm. -/
def isNegativeNumber : List Char → Bool
  | '-' :: rest =>
    let rest := if rest.getLast? = some '\n' then rest.dropLast else rest
    match rest.dropWhile isDigit with
    | [] => !rest.isEmpty
    | '.' :: fraction => !fraction.isEmpty && fraction.all isDigit
    | _ => false
  | _ => false

def whole? (ss : Switches ω) (arg : String) : Option (Token ω) :=
  (Entries.find? arg ss).map fun s => .switch s arg none

def withValue? (ss : Switches ω) (arg : String) : Option (Token ω) :=
  match cutAtEquals arg.toList with
  | (_, none) => none
  | (name, value) =>
    (Entries.find? (String.ofList name) ss).map fun s => .switch s (String.ofList name) value

/-- The switches for which an argument may be short. Behind a single dash the first letter is the
switch. -/
def candidates (ss : Switches ω) (arg : String) : List (String × Token ω) :=
  match arg.toList with
  | '-' :: '-' :: _ =>
    let (short, value) := cutAtEquals arg.toList
    (ss.filter fun s => short.isPrefixOf s.1.toList).map fun (n, s) => (n, .switch s n value)
  | '-' :: c :: more =>
    (ss.filter fun s => s.1.toList == ['-', c]).map fun (n, s) => (n, .letter s c more)
  | _ => []

/-- Numbers below zero and arguments with a blank are no switches. -/
def orPlain (arg : String) : Token ω :=
  if isNegativeNumber arg.toList || arg.toList.contains ' ' then .plain arg else .unknown arg

def ofArgument (ss : Switches ω) (arg : String) : Except Refusal (Token ω) :=
  match arg.toList with
  | '-' :: _ :: _ =>
    match whole? ss arg <|> withValue? ss arg with
    | some t => .ok t
    | none =>
      match candidates ss arg with
      | [] => .ok (orPlain arg)
      | [(_, t)] => .ok t
      | several => .error (.ambiguous arg (several.map Prod.fst))
  | _ => .ok (.plain arg)

def ofArguments (ss : Switches ω) : List String → Except Refusal (List (Token ω))
  | [] => .ok []
  | arg :: rest =>
    if arg = "--" then .ok (.marker :: rest.map .plain)
    else do
      let t ← ofArgument ss arg
      return t :: (← ofArguments ss rest)

end Token

namespace Effect

def give (e : Effect ω) (name value : String) (o : ω) : Except Refusal ω :=
  match e with
  | .text set => .ok (set value o)
  | .whole set =>
    match readInt? value with
    | some n => .ok (set n o)
    | none => .error (.notWhole name value)
  | .mark _ => .error (.valueUnwanted name value)
  | .help => .error (.valueUnwanted name value)

/-- A letter may be repeated, and letters of no switch do no harm behind it; a value may not be
given to it. -/
def isPlainLetter (c : Char) : List Char → Bool
  | [] => true
  | '-' :: _ => false
  | d :: more => d ≠ c || (more.head? ≠ some '=' && isPlainLetter c more)

def giveLetter (e : Effect ω) (c : Char) (more : List Char) (o : ω) : Except Refusal ω :=
  match e with
  | .help =>
    .error (if isPlainLetter c more then .helpWanted
      else .valueUnwanted (String.ofList ['-', c]) (String.ofList more))
  | e => e.give (String.ofList ['-', c]) (String.ofList more) o

end Effect

def applyTokens : List (Token ω) → ω → List String → Except Refusal (ω × List String)
  | [], o, left => .ok (o, left)
  | .plain text :: rest, o, left => applyTokens rest o (left ++ [text])
  | .unknown text :: rest, o, left => applyTokens rest o (left ++ [text])
  | .marker :: rest, o, left => applyTokens rest o (left ++ ["--"])
  | .switch s name (some value) :: rest, o, left => do
    applyTokens rest (← s.effect.give name value o) left
  | .letter s c more :: rest, o, left => do
    applyTokens rest (← s.effect.giveLetter c more o) left
  | .switch s name none :: .plain value :: rest, o, left =>
    match s.effect with
    | .help => .error .helpWanted
    | .mark set => applyTokens rest (set o) (left ++ [value])
    | e => do applyTokens rest (← e.give name value o) left
  | .switch s name none :: rest, o, left =>
    match s.effect with
    | .help => .error .helpWanted
    | .mark set => applyTokens rest (set o) left
    | _ => .error (.valueMissing name)

def readArguments (ss : List (Switch ω)) (defaults : ω) (args : List String) :
    Except Refusal ω := do
  let tokens ← Token.ofArguments (Switches.named ss) args
  match ← applyTokens tokens defaults [] with
  | (o, []) => return o
  | (_, left) => .error (.unrecognized left)

def helpSwitch : Switch ω := ⟨["-h", "--help"], .help, "show how the command is used"⟩

end CommandLine

end CohortAnalytics
