import CohortAnalytics.Proofs.Cancellation.Registrations
import CohortAnalytics.Proofs.Results
import CohortAnalytics.Warehouse.Execution

/-!
What can happen while a query is executed, one step at a time.
-/

namespace CohortAnalytics

namespace Execution

variable {plan : ExecutionPlan} {e e' : Execution}

/-- Actions of the executing thread that do no more than bring it to its next one. -/
inductive Advances (plan : ExecutionPlan) (e : Execution) : ExecutionPhase → Prop
  | startsAlone (hphase : e.phase = .registering) (hunder : plan.underToken = false) :
      Advances plan e .checking
  | refuses (hphase : e.phase = .checking) (hqueue : e.token.queues 0 = [])
      (hstriking : 0 ∉ e.striking) (hcancelled : e.cancelled = true) :
      Advances plan e (.stoppingTimer (.error beforeStart))
  | executes {columns : List String} (hphase : e.phase = .sending)
      (hsent : plan.script.sent = .ok columns) : Advances plan e (.fetching columns)
  | breaks {err : CursorError} (hphase : e.phase = .sending)
      (hsent : plan.script.sent = .error err) : Advances plan e (.failing err)
  | fetches {columns : List String} {rows : List (List Json)} (hphase : e.phase = .fetching columns)
      (hfetched : plan.script.fetched = .ok rows) :
      Advances plan e (.stoppingTimer (.ok (rows.map (namedRow columns))))
  | breaksOff {columns : List String} {err : CursorError} (hphase : e.phase = .fetching columns)
      (hfetched : plan.script.fetched = .error err) : Advances plan e (.failing err)
  | passes {f : Failure} (hphase : e.phase = .failing (.other f)) :
      Advances plan e (.stoppingTimer (.error f))
  | cancelled {message : String} (hphase : e.phase = .failing (.engine message))
      (hcancelled : e.cancelled = true) : Advances plan e (.stoppingTimer (.error cancelledFailure))
  | doubts {message : String} (hphase : e.phase = .failing (.engine message))
      (hcancelled : e.cancelled = false) : Advances plan e (.blaming message)
  | timedOut {message : String} (hphase : e.phase = .blaming message)
      (htimedOut : e.timedOut = true) :
      Advances plan e (.stoppingTimer (.error (timeoutFailure plan.timeout)))
  | rejects {message : String} (hphase : e.phase = .blaming message)
      (htimedOut : e.timedOut = false) :
      Advances plan e (.stoppingTimer (.error (.store (.rejected (some message)))))
  | endsAlone {r : Except Failure (List StoreRow)} (hphase : e.phase = .unregistering r)
      (hunder : plan.underToken = false) : Advances plan e (.closing r)

/-- The step is one of a thread that runs callbacks; the executing thread only does so before it
checks whether it was cancelled. -/
def Turn (e : Execution) (s : ExecutionStep) (thread : ℕ) : Prop :=
  if thread = 0 then s = .proceed ∧ e.phase = .checking
  else s = .token (.fire thread) ∨ s = .strike thread

/-- What each step requires and does. -/
inductive Moves (plan : ExecutionPlan) (e : Execution) : ExecutionStep → Execution → Prop
  | advances {phase : ExecutionPhase} (h : e.Advances plan phase) :
      Moves plan e .proceed { e with phase }
  | registers {token : TokenThreads TokenUse} (hphase : e.phase = .registering)
      (hunder : plan.underToken = true) (htoken : e.token.step? (.add 0 .interrupt) = some token) :
      Moves plan e .proceed { e with phase := .checking, token }
  | sends (hphase : e.phase = .checking) (hqueue : e.token.queues 0 = [])
      (hstriking : 0 ∉ e.striking) (hcancelled : e.cancelled = false) :
      Moves plan e .proceed { e with phase := .sending, timer := .armed, queries := e.queries + 1 }
  | stopsTimer {r : Except Failure (List StoreRow)} (hphase : e.phase = .stoppingTimer r) :
      Moves plan e .proceed { e with
        phase := .unregistering r
        timer := if e.timer = .idle ∨ e.timer = .armed then .stopped else e.timer }
  | unregisters {r : Except Failure (List StoreRow)} {token : TokenThreads TokenUse}
      (hphase : e.phase = .unregistering r) (hunder : plan.underToken = true)
      (htoken : e.token.step? (.remove .interrupt) = some token) :
      Moves plan e .proceed { e with phase := .closing r, token }
  | closes {r : Except Failure (List StoreRow)} (hphase : e.phase = .closing r) :
      Moves plan e .proceed { e with phase := .over r, closes := e.closes + 1 }
  | begins {s : ExecutionStep} {thread : ℕ} {rest : List TokenUse} {token : TokenThreads TokenUse}
      (hs : e.Turn s thread) (hqueue : e.token.queues thread = .interrupt :: rest)
      (htoken : e.token.step? (.fire thread) = some token) :
      Moves plan e s { e with token, cancelled := true, striking := thread :: e.striking }
  | runsOther {s : ExecutionStep} {thread n : ℕ} {rest : List TokenUse}
      {token : TokenThreads TokenUse} (hs : e.Turn s thread)
      (hqueue : e.token.queues thread = .other n :: rest)
      (htoken : e.token.step? (.fire thread) = some token) : Moves plan e s { e with token }
  | strikes {s : ExecutionStep} {thread : ℕ} (hs : e.Turn s thread)
      (hstriking : thread ∈ e.striking) :
      Moves plan e s { e.interrupted with striking := e.striking.erase thread }
  | token {s : TokenStep TokenUse} {token : TokenThreads TokenUse} (hs : s.isForeign = true)
      (hfire : ∀ thread, s ≠ .fire thread) (htoken : e.token.step? s = some token) :
      Moves plan e (.token s) { e with token }
  | timerDue (htimer : e.timer = .armed) : Moves plan e .timerDue { e with timer := .due }
  | timerFires (htimer : e.timer = .due) :
      Moves plan e .timerFires { e with timer := .striking, timedOut := true }
  | timerStrikes (htimer : e.timer = .striking) :
      Moves plan e .timerStrikes { e.interrupted with timer := .fired }

theorem moves_of_fire {s : ExecutionStep} {thread : ℕ} (hs : e.Turn s thread)
    (h : e.tokenStep? (.fire thread) = some e') : e.Moves plan s e' := by
  unfold tokenStep? at h
  dsimp only at h
  split_ifs at h
  split at h
  case h_1 => cases h
  case h_2 c rest hqueue =>
    obtain ⟨token, htoken, rfl⟩ := Option.map_eq_some_iff.mp h
    cases c with
    | interrupt => exact .begins hs hqueue htoken
    | other n => exact .runsOther hs hqueue htoken

theorem tokenStep?_cases {s : TokenStep TokenUse} (hfire : ∀ thread, s ≠ .fire thread)
    (h : e.tokenStep? s = some e') : ∃ token, e.token.step? s = some token ∧ e' = { e with token } := by
  cases s with
  | fire thread => exact absurd rfl (hfire thread)
  | _ =>
    unfold tokenStep? at h
    obtain ⟨token, htoken, rfl⟩ := Option.map_eq_some_iff.mp h
    exact ⟨token, htoken, rfl⟩

theorem strike?_cases {thread : ℕ} (h : e.strike? thread = some e') :
    thread ∈ e.striking ∧ e' = { e.interrupted with striking := e.striking.erase thread } := by
  unfold strike? at h
  split_ifs at h with hstriking
  exact ⟨hstriking, (Option.some.inj h).symm⟩

theorem proceed?_moves (h : e.proceed? plan = some e') : e.Moves plan .proceed e' := by
  unfold proceed? at h
  split at h
  case h_1 hphase =>
    split_ifs at h with hunder
    · obtain ⟨token, htoken, rfl⟩ := tokenStep?_cases (by simp) h
      exact .registers hphase hunder htoken
    · obtain rfl := Option.some.inj h
      exact .advances (.startsAlone hphase (by simpa using hunder))
  case h_2 hphase =>
    have hturn : e.Turn .proceed 0 := ⟨rfl, hphase⟩
    split_ifs at h with hstriking hqueue
    · obtain ⟨-, rfl⟩ := strike?_cases h
      exact .strikes hturn hstriking
    · obtain rfl := Option.some.inj h
      unfold check
      split_ifs with hcancelled
      · exact .advances (.refuses hphase (by simpa using hqueue) hstriking hcancelled)
      · exact .sends hphase (by simpa using hqueue) hstriking (by simpa using hcancelled)
    · exact moves_of_fire hturn h
  case h_3 hphase =>
    split_ifs at h
    split at h
    case h_1 columns hsent =>
      obtain rfl := Option.some.inj h
      exact .advances (.executes hphase hsent)
    case h_2 err hsent =>
      obtain rfl := Option.some.inj h
      exact .advances (.breaks hphase hsent)
  case h_4 columns hphase =>
    split at h
    case h_1 rows hfetched =>
      obtain rfl := Option.some.inj h
      exact .advances (.fetches hphase hfetched)
    case h_2 err hfetched =>
      obtain rfl := Option.some.inj h
      exact .advances (.breaksOff hphase hfetched)
  case h_5 f hphase =>
    obtain rfl := Option.some.inj h
    exact .advances (.passes hphase)
  case h_6 message hphase =>
    split_ifs at h with hcancelled
    · obtain rfl := Option.some.inj h
      exact .advances (.cancelled hphase hcancelled)
    · obtain rfl := Option.some.inj h
      exact .advances (.doubts hphase (by simpa using hcancelled))
  case h_7 message hphase =>
    split_ifs at h with htimedOut
    · obtain rfl := Option.some.inj h
      exact .advances (.timedOut hphase htimedOut)
    · obtain rfl := Option.some.inj h
      exact .advances (.rejects hphase (by simpa using htimedOut))
  case h_8 r hphase =>
    obtain rfl := Option.some.inj h
    exact .stopsTimer hphase
  case h_9 r hphase =>
    split_ifs at h with hunder
    · obtain ⟨token, htoken, rfl⟩ := tokenStep?_cases (by simp) h
      exact .unregisters hphase hunder htoken
    · obtain rfl := Option.some.inj h
      exact .advances (.endsAlone hphase (by simpa using hunder))
  case h_10 r hphase =>
    obtain rfl := Option.some.inj h
    exact .closes hphase
  case h_11 => cases h

theorem step?_moves {s : ExecutionStep} (h : e.step? plan s = some e') : e.Moves plan s e' := by
  cases s with
  | proceed => exact proceed?_moves h
  | timerDue =>
    dsimp only [step?] at h
    split_ifs at h with htimer
    obtain rfl := Option.some.inj h
    exact .timerDue htimer
  | timerFires =>
    dsimp only [step?] at h
    split_ifs at h with htimer
    obtain rfl := Option.some.inj h
    exact .timerFires htimer
  | timerStrikes =>
    dsimp only [step?] at h
    split_ifs at h with htimer
    obtain rfl := Option.some.inj h
    exact .timerStrikes htimer
  | token s =>
    dsimp only [step?] at h
    split_ifs at h with hforeign
    by_cases hfire : ∃ thread, s = .fire thread
    · obtain ⟨thread, rfl⟩ := hfire
      have hthread : thread ≠ 0 := by simpa [TokenStep.isForeign] using hforeign
      exact moves_of_fire (by simp [Turn, hthread]) h
    · rw [not_exists] at hfire
      obtain ⟨token, htoken, rfl⟩ := tokenStep?_cases hfire h
      exact .token hforeign hfire htoken
  | strike thread =>
    dsimp only [step?] at h
    split_ifs at h with hthread
    obtain ⟨hstriking, rfl⟩ := strike?_cases h
    exact .strikes (by simp [Turn, hthread]) hstriking

theorem run_induction {start : Execution} {steps : List ExecutionStep}
    {P : List ExecutionStep → Execution → Prop} (hnil : P [] start)
    (hconcat : ∀ taken b s d, start.run? plan taken = some b → b.Moves plan s d → P taken b →
      P (taken ++ [s]) d)
    (h : start.run? plan steps = some e) : P steps e :=
  foldlM_induction hnil (fun taken b s d hb hs => hconcat taken b s d hb (step?_moves hs)) h

theorem run?_cons {d : Execution} {s : ExecutionStep} {steps : List ExecutionStep}
    (hs : e.step? plan s = some d) (h : d.run? plan steps = some e') :
    e.run? plan (s :: steps) = some e' := Option.bind_eq_some_iff.mpr ⟨d, hs, h⟩

theorem run?_append {d : Execution} {steps more : List ExecutionStep}
    (hd : e.run? plan steps = some d) (h : d.run? plan more = some e') :
    e.run? plan (steps ++ more) = some e' := by
  rw [run?, List.foldlM_append]
  exact Option.bind_eq_some_iff.mpr ⟨d, hd, h⟩

/-- What the phase says about the timer, the query and the cursor. -/
def Paced (e : Execution) : Prop :=
  match e.phase with
  | .registering => e.timer = .idle ∧ e.queries = 0 ∧ e.closes = 0
  | .checking => e.timer = .idle ∧ e.queries = 0 ∧ e.closes = 0
  | .stoppingTimer _ => e.timer ≠ .stopped ∧ e.closes = 0
  | .unregistering _ => e.timer ≠ .idle ∧ e.timer ≠ .armed ∧ e.closes = 0
  | .closing _ => e.timer ≠ .idle ∧ e.timer ≠ .armed ∧ e.closes = 0
  | .over _ => e.timer ≠ .idle ∧ e.timer ≠ .armed ∧ e.closes = 1
  | _ => e.timer ≠ .idle ∧ e.timer ≠ .stopped ∧ e.queries = 1 ∧ e.closes = 0

theorem Paced.next {s : ExecutionStep} (h : e.Paced) (hm : e.Moves plan s e') : e'.Paced := by
  cases hm with
  | advances hadvances => cases hadvances <;> simp_all [Paced]
  | registers hphase => simpa [Paced, hphase] using h
  | sends hphase => simp_all [Paced]
  | stopsTimer hphase =>
    simp only [Paced, hphase] at h ⊢
    split_ifs <;> simp_all
  | unregisters hphase => simpa [Paced, hphase] using h
  | closes hphase => simp_all [Paced]
  | begins => exact h
  | runsOther => exact h
  | strikes => exact h
  | token => exact h
  | timerDue htimer =>
    unfold Paced at h ⊢
    cases hphase : e.phase <;> simp_all
  | timerFires htimer =>
    unfold Paced at h ⊢
    cases hphase : e.phase <;> simp_all
  | timerStrikes htimer =>
    unfold Paced interrupted at *
    cases hphase : e.phase <;> simp_all

end Execution

end CohortAnalytics
