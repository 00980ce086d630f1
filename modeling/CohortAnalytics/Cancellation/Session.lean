import CohortAnalytics.Cancellation.Token
import CohortAnalytics.Entries

/-!
Named tokens in one thread: nested scopes, and callbacks that take further steps when they run.
-/

namespace CohortAnalytics

inductive TokenCommand
  | enter (token : String)
  | exitAll
  | current
  | add (token callback : String) (next : List TokenCommand)
  | remove (token callback : String)
  | cancel (token : String)
  | wait (token : String)
  deriving Inhabited

inductive TokenAnswer
  | nothing
  | token (name : Option String)
  | flag (b : Bool)

/-- Tokens exist from their first mention on, and a callback's steps are those of its first. -/
structure TokenSession where
  tokens : Entries (Token String) := []
  scopes : List String := []
  callbacks : Entries (List TokenCommand) := []
  fired : List String := []

namespace TokenSession

def mention (s : TokenSession) (token : String) : TokenSession :=
  match s.tokens.find? token with
  | some _ => s
  | none => { s with tokens := s.tokens.put token {} }

def tokenOf (s : TokenSession) (token : String) : Token String := (s.tokens.find? token).getD {}

def setToken (s : TokenSession) (name : String) (t : Token String) : TokenSession :=
  { s with tokens := s.tokens.put name t }

def define (s : TokenSession) (callback : String) (next : List TokenCommand) : TokenSession :=
  match s.callbacks.find? callback with
  | some _ => s
  | none => { s with callbacks := s.callbacks.put callback next }

def apply (s : TokenSession) : TokenCommand → TokenSession × TokenAnswer × List String
  | .enter token => ({ s.mention token with scopes := token :: s.scopes }, .nothing, [])
  | .exitAll => ({ s with scopes := [] }, .nothing, [])
  | .current => (s, .token s.scopes.head?, [])
  | .add token callback next =>
    let s := (s.mention token).define callback next
    let (t, cs) := (s.tokenOf token).add callback
    (s.setToken token t, .nothing, cs)
  | .remove token callback =>
    let s := (s.mention token).define callback []
    (s.setToken token ((s.tokenOf token).remove callback), .nothing, [])
  | .cancel token =>
    let s := s.mention token
    let (t, cs) := (s.tokenOf token).cancel
    (s.setToken token t, .nothing, cs)
  | .wait token =>
    let s := s.mention token
    (s, .flag (s.tokenOf token).cancelled, [])

/-- Work still to do: commands to take and callbacks to run. -/
inductive Task
  | take (c : TokenCommand)
  | fire (callback : String)

def perform : Nat → TokenSession → List Task → TokenSession
  | 0, s, _ => s
  | _ + 1, s, [] => s
  | turns + 1, s, .take c :: rest =>
    let (s, _, cs) := s.apply c
    perform turns s (cs.map .fire ++ rest)
  | turns + 1, s, .fire callback :: rest =>
    let s := { s with fired := s.fired ++ [callback] }
    let next := (s.callbacks.find? callback).getD []
    perform turns s (next.map .take ++ rest)

/-- A callback that registers itself on a cancelled token would go on for ever. -/
def mostTurns : Nat := 100000

def command (s : TokenSession) (c : TokenCommand) : TokenSession × TokenAnswer :=
  let (s, answer, cs) := s.apply c
  (perform mostTurns s (cs.map .fire), answer)

end TokenSession

end CohortAnalytics
