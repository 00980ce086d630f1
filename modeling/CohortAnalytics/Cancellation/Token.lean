/-!
Cancellation tokens and what several threads may do with one. The token's own state changes in
critical sections; the callbacks that a section hands out run after it, in the thread that made it.
-/

namespace CohortAnalytics

structure Token (κ : Type) where
  cancelled : Bool := false
  callbacks : List κ := []

namespace Token

variable {κ : Type} [DecidableEq κ]

def add (t : Token κ) (c : κ) : Token κ × List κ :=
  if t.cancelled then (t, [c]) else ({ t with callbacks := t.callbacks ++ [c] }, [])

/-- Takes out the callback's first registration. -/
def remove (t : Token κ) (c : κ) : Token κ := { t with callbacks := t.callbacks.erase c }

/-- Hands out every registration, the first time only. -/
def cancel (t : Token κ) : Token κ × List κ :=
  if t.cancelled then (t, []) else ({ t with cancelled := true }, t.callbacks)

end Token

inductive TokenStep (κ : Type)
  | add (thread : Nat) (c : κ)
  | remove (c : κ)
  | cancel (thread : Nat)
  | fire (thread : Nat)

/-- A token, the callbacks each thread still has to run, and those that have run. -/
structure TokenThreads (κ : Type) where
  token : Token κ := {}
  queues : Nat → List κ := fun _ => []
  fired : List κ := []

namespace TokenThreads

variable {κ : Type} [DecidableEq κ]

def enqueue (s : TokenThreads κ) (thread : Nat) (cs : List κ) : Nat → List κ :=
  fun t => if t = thread then s.queues t ++ cs else s.queues t

def step? (s : TokenThreads κ) : TokenStep κ → Option (TokenThreads κ)
  | .add thread c =>
    let (token, cs) := s.token.add c
    some { s with token, queues := s.enqueue thread cs }
  | .remove c => some { s with token := s.token.remove c }
  | .cancel thread =>
    let (token, cs) := s.token.cancel
    some { s with token, queues := s.enqueue thread cs }
  | .fire thread =>
    match s.queues thread with
    | [] => none
    | c :: rest =>
      some { s with
        queues := fun t => if t = thread then rest else s.queues t
        fired := s.fired ++ [c] }

def run? (s : TokenThreads κ) (steps : List (TokenStep κ)) : Option (TokenThreads κ) :=
  steps.foldlM step? s

end TokenThreads

end CohortAnalytics
