import CohortAnalytics.Proofs.Warehouse.Interrupts

/-!
How a query ends, whoever interrupts it and when. It always can end; then its token is as the others
have left it, its timer and its cursor are done with, and its result names what made an end of it.
-/

namespace CohortAnalytics

/-- What others do with the token in the course of some steps. -/
def foreignSteps (steps : List ExecutionStep) : List (TokenStep TokenUse) :=
  steps.filterMap fun s => match s with
    | .token t => some t
    | _ => none

def TokenStep.isEdit : TokenStep TokenUse → Bool
  | .add _ _ => true
  | .remove _ => true
  | _ => false

/-- The token as it is to those who do not know of the query. -/
def Token.withoutInterrupt (t : Token TokenUse) : Token TokenUse :=
  { t with callbacks := t.callbacks.erase .interrupt }

namespace Token

variable {t : Token TokenUse} {s : TokenStep TokenUse}

theorem withoutInterrupt_of_not_mem (h : .interrupt ∉ t.callbacks) : t.withoutInterrupt = t := by
  rw [withoutInterrupt, List.erase_of_not_mem h]

theorem withoutInterrupt_after (hs : s.isForeign = true) :
    (t.after s).withoutInterrupt = t.withoutInterrupt.after s := by
  cases s with
  | add u c =>
    obtain ⟨-, hc⟩ : u ≠ 0 ∧ c ≠ .interrupt := by simpa [TokenStep.isForeign] using hs
    cases hcancelled : t.cancelled with
    | true => simp [after, add, withoutInterrupt, hcancelled]
    | false =>
      by_cases hmem : .interrupt ∈ t.callbacks
      · simp [after, add, withoutInterrupt, hcancelled, List.erase_append_left _ hmem]
      · have hnone : .interrupt ∉ t.callbacks ++ [c] := by simp [hmem, hc.symm]
        simp [after, add, withoutInterrupt, hcancelled, List.erase_of_not_mem hmem,
          List.erase_of_not_mem hnone]
  | remove c => simp [after, remove, withoutInterrupt, List.erase_comm]
  | cancel u => cases hcancelled : t.cancelled <;> simp [after, cancel, withoutInterrupt, hcancelled]
  | fire u => rfl

theorem withoutInterrupt_registered (h : .interrupt ∉ t.callbacks) :
    (t.after (.add 0 .interrupt)).withoutInterrupt = t.withoutInterrupt := by
  cases hcancelled : t.cancelled with
  | true => simp [after, add, withoutInterrupt, hcancelled]
  | false =>
    simp [after, add, withoutInterrupt, hcancelled, List.erase_append_right _ h,
      List.erase_of_not_mem h]

theorem withoutInterrupt_unregistered (h : .interrupt ∉ (t.after (.remove .interrupt)).callbacks) :
    (t.after (.remove .interrupt)).withoutInterrupt = t.withoutInterrupt := by
  rw [withoutInterrupt_of_not_mem h]
  rfl

theorem callbacks_foldl_after {steps : List (TokenStep TokenUse)}
    (h : ∀ s ∈ steps, s.isEdit = false) : (steps.foldl after t).callbacks = t.callbacks := by
  induction steps generalizing t with
  | nil => rfl
  | cons s rest ih =>
    have hs : (t.after s).callbacks = t.callbacks := by
      cases s with
      | cancel u => cases hcancelled : t.cancelled <;> simp [after, cancel, hcancelled]
      | fire u => rfl
      | _ => cases h _ List.mem_cons_self
    rw [List.foldl_cons, ih fun s hmem => h s (List.mem_cons_of_mem _ hmem), hs]

end Token

/-- What the cursor answers: rows under their columns, or the first error. -/
def CursorScript.outcome (s : CursorScript) : Except CursorError (List StoreRow) := do
  let columns ← s.sent
  let rows ← s.fetched
  return rows.map (Execution.namedRow columns)

def ExecutionStep.isOwn : ExecutionStep → Bool
  | .token _ => false
  | .strike _ => false
  | _ => true

/-- The timer has come due, whatever has become of it since. -/
def TimerState.isPastDue : TimerState → Bool
  | .due => true
  | .striking => true
  | .fired => true
  | _ => false

namespace Execution

variable {plan : ExecutionPlan} {e e' : Execution} {s : ExecutionStep}
variable {stage : InterruptStage} {t : TokenThreads TokenUse} {steps : List ExecutionStep}

theorem Turn.foldl_foreignSteps {thread : ℕ} (h : e.Turn s thread) (t : Token TokenUse) :
    (foreignSteps [s]).foldl Token.after t = t := by
  unfold Turn at h
  split_ifs at h
  · rw [h.1]
    rfl
  · rcases h with rfl | rfl <;> rfl

theorem At.withoutInterrupt_next (h : e.At plan stage) (hm : e.Moves plan s e') :
    e'.token.token.withoutInterrupt =
      (foreignSteps [s]).foldl Token.after e.token.token.withoutInterrupt := by
  cases hm with
  | registers hphase hunder htoken =>
    have hnone : .interrupt ∉ e.token.token.callbacks := fun hmem => by
      simpa [hphase, ExecutionPhase.isRegistered] using h.registered hmem
    exact (congrArg Token.withoutInterrupt (TokenThreads.step?_keeps_fired htoken (by simp)).1).trans
      (Token.withoutInterrupt_registered hnone)
  | unregisters hphase hunder htoken =>
    have hnone := (h.placed.unregisters htoken).1
    have hafter := (TokenThreads.step?_keeps_fired htoken (by simp)).1
    rw [hafter] at hnone
    exact (congrArg Token.withoutInterrupt hafter).trans (Token.withoutInterrupt_unregistered hnone)
  | token hs hfire htoken =>
    exact (congrArg Token.withoutInterrupt (TokenThreads.step?_keeps_fired htoken hfire).1).trans
      (Token.withoutInterrupt_after hs)
  | begins hs hqueue htoken =>
    rw [hs.foldl_foreignSteps, TokenThreads.step?_fire_spec hqueue htoken]
  | runsOther hs hqueue htoken =>
    rw [hs.foldl_foreignSteps, TokenThreads.step?_fire_spec hqueue htoken]
  | strikes hs => exact (hs.foldl_foreignSteps _).symm
  | _ => rfl

/-- To the others the token is all the time as if there were no query. -/
theorem withoutInterrupt_run (ht : t.Fresh)
    (h : ({ token := t } : Execution).run? plan steps = some e) :
    e.token.token.withoutInterrupt = (foreignSteps steps).foldl Token.after t.token := by
  refine run_induction (P := fun steps e => e.token.token.withoutInterrupt =
    (foreignSteps steps).foldl Token.after t.token)
    (Token.withoutInterrupt_of_not_mem ht.listed) (fun taken b s d hb hm ih => ?_) h
  obtain ⟨stage, hat⟩ := at_run ht hb
  rw [hat.withoutInterrupt_next hm, ih, foreignSteps, foreignSteps, foreignSteps,
    List.filterMap_append, List.foldl_append]

theorem Turn.ne_timer {thread : ℕ} (h : e.Turn s thread) : s ≠ .timerDue ∧ s ≠ .timerFires := by
  unfold Turn at h
  split_ifs at h
  · simp [h.1]
  · rcases h with rfl | rfl <;> simp

theorem At.timer_next (h : e.At plan stage) (hm : e.Moves plan s e') :
    (e'.timer.isPastDue = true ↔ e.timer.isPastDue = true ∨ s = .timerDue) ∧
      (e'.timedOut = true ↔ e.timedOut = true ∨ s = .timerFires) := by
  cases hm with
  | sends hphase =>
    have hidle := h.paced
    simp only [Paced, hphase] at hidle
    simp [hidle.1, TimerState.isPastDue]
  | stopsTimer hphase => cases e.timer <;> simp [TimerState.isPastDue]
  | begins hs => simp [hs.ne_timer]
  | runsOther hs => simp [hs.ne_timer]
  | strikes hs => simp [hs.ne_timer, interrupted]
  | timerDue => simp [TimerState.isPastDue]
  | timerFires htimer => simp [htimer, TimerState.isPastDue]
  | timerStrikes htimer => simp [htimer, TimerState.isPastDue, interrupted]
  | _ => simp

theorem timer_run (ht : t.Fresh) (h : ({ token := t } : Execution).run? plan steps = some e) :
    (e.timer.isPastDue = true ↔ .timerDue ∈ steps) ∧ (e.timedOut = true ↔ .timerFires ∈ steps) := by
  refine run_induction (P := fun steps e => (e.timer.isPastDue = true ↔ .timerDue ∈ steps) ∧
    (e.timedOut = true ↔ .timerFires ∈ steps)) (by simp [TimerState.isPastDue])
    (fun taken b s d hb hm ih => ?_) h
  obtain ⟨stage, hat⟩ := at_run ht hb
  obtain ⟨hdue, hfires⟩ := hat.timer_next hm
  constructor
  · rw [hdue, ih.1, List.mem_append, List.mem_singleton, eq_comm (a := s)]
  · rw [hfires, ih.2, List.mem_append, List.mem_singleton, eq_comm (a := s)]

theorem unsent_run (ht : t.Fresh) (hunder : plan.underToken = true)
    (hcancelled : t.token.cancelled = true)
    (h : ({ token := t } : Execution).run? plan steps = some e) :
    ∃ stage, e.At plan stage ∧ e.queries = 0 ∧
      (e.phase = .registering ∨ stage.isWith 0 ∨ stage = .struck) := by
  refine run_induction (P := fun _ e => ∃ stage, e.At plan stage ∧ e.queries = 0 ∧
    (e.phase = .registering ∨ stage.isWith 0 ∨ stage = .struck))
    ⟨.absent, at_initial ht, rfl, .inl rfl⟩ (fun taken b s d hb hm ih => ?_) h
  obtain ⟨stage, hat, hqueries, hplace⟩ := ih
  obtain ⟨stage', hat', hfollows⟩ := hat.next hm
  have hstill : b.token.token.cancelled = true := by
    have hsame := congrArg Token.cancelled (withoutInterrupt_run ht hb)
    exact hsame.trans (Token.foldl_after_cancelled hcancelled _).1
  refine ⟨stage', hat', ?_, ?_⟩
  -- To send the query the thread must have run the interrupt, and not have seen its flag.
  · cases hm with
    | sends hphase hqueue hstriking hcancelled =>
      rcases hplace with hregistering | hwith | rfl
      · simp [hphase] at hregistering
      · exact absurd hwith (hat.not_with_own hqueue hstriking)
      · simp [hat.placed.cancelled, InterruptStage.hasBegun] at hcancelled
    | _ => exact hqueries
  cases hfollows with
  | stays =>
    rcases hplace with hphase | hplace
    · cases hm with
      | advances hadvances => cases hadvances <;> simp_all
      | registers => exact absurd (hat.registering hphase) (hat'.present hunder rfl)
      | sends | stopsTimer | unregisters | closes => simp_all
      | _ => exact .inl hphase
    · exact .inr hplace
  | registers =>
    rw [if_pos hstill]
    exact .inr (.inl (.inl rfl))
  | _ =>
    rcases hplace with hphase | hwith | hstruck
    · have habsent := hat.registering hphase
      simp_all
    · simp_all [InterruptStage.isWith]
    · simp_all

/-- In the course of a run the executing thread goes on from such a state, reached by such steps. -/
def GoesOnFrom (plan : ExecutionPlan) (start : Execution) (steps : List ExecutionStep)
    (p : List ExecutionStep → Execution → Prop) : Prop :=
  ∃ taken rest b, steps = taken ++ .proceed :: rest ∧ start.run? plan taken = some b ∧ p taken b

/-- What a result, and whether the query was sent for it, says of the run: each failure names the
cause that was found where the executing thread looked for it. -/
inductive Accounts (plan : ExecutionPlan) (start : Execution) (steps : List ExecutionStep) :
    ℕ → Except Failure (List StoreRow) → Prop
  | refused (hlook : GoesOnFrom plan start steps fun _ b =>
      b.phase = .checking ∧ .interrupt ∈ b.token.fired) :
      Accounts plan start steps 0 (.error beforeStart)
  | answered {rows : List StoreRow} (houtcome : plan.script.outcome = .ok rows) :
      Accounts plan start steps 1 (.ok rows)
  | passed {f : Failure} (houtcome : plan.script.outcome = .error (.other f)) :
      Accounts plan start steps 1 (.error f)
  | cancelled {message : String} (houtcome : plan.script.outcome = .error (.engine message))
      (hlook : GoesOnFrom plan start steps fun _ b =>
        b.phase = .failing (.engine message) ∧ .interrupt ∈ b.token.fired) :
      Accounts plan start steps 1 (.error cancelledFailure)
  | timedOut {message : String} (houtcome : plan.script.outcome = .error (.engine message))
      (hlook : GoesOnFrom plan start steps fun _ b =>
        b.phase = .failing (.engine message) ∧ .interrupt ∉ b.token.fired)
      (hnext : GoesOnFrom plan start steps fun taken b =>
        b.phase = .blaming message ∧ .timerFires ∈ taken) :
      Accounts plan start steps 1 (.error (timeoutFailure plan.timeout))
  | rejected {message : String} (houtcome : plan.script.outcome = .error (.engine message))
      (hlook : GoesOnFrom plan start steps fun _ b =>
        b.phase = .failing (.engine message) ∧ .interrupt ∉ b.token.fired)
      (hnext : GoesOnFrom plan start steps fun taken b =>
        b.phase = .blaming message ∧ .timerFires ∉ taken) :
      Accounts plan start steps 1 (.error (.store (.rejected (some message))))

section Accounts

variable {start : Execution} {p : List ExecutionStep → Execution → Prop} {n : ℕ}
variable {r : Except Failure (List StoreRow)}

theorem GoesOnFrom.append (h : GoesOnFrom plan start steps p) (more : List ExecutionStep) :
    GoesOnFrom plan start (steps ++ more) p := by
  obtain ⟨taken, rest, b, rfl, hb, hp⟩ := h
  exact ⟨taken, rest ++ more, b, by simp, hb, hp⟩

theorem goesOnFrom_concat (hb : start.run? plan steps = some e) (hp : p steps e) :
    GoesOnFrom plan start (steps ++ [.proceed]) p := ⟨steps, [], e, rfl, hb, hp⟩

theorem Accounts.append (h : Accounts plan start steps n r) (more : List ExecutionStep) :
    Accounts plan start (steps ++ more) n r := by
  cases h with
  | refused hlook => exact .refused (hlook.append more)
  | answered houtcome => exact .answered houtcome
  | passed houtcome => exact .passed houtcome
  | cancelled houtcome hlook => exact .cancelled houtcome (hlook.append more)
  | timedOut houtcome hlook hnext => exact .timedOut houtcome (hlook.append more) (hnext.append more)
  | rejected houtcome hlook hnext => exact .rejected houtcome (hlook.append more) (hnext.append more)

/-- What a phase says of the cursor's answers, and of the looks that were taken. -/
def OnAccount (plan : ExecutionPlan) (start : Execution) (steps : List ExecutionStep)
    (e : Execution) : Prop :=
  match e.phase with
  | .registering => True
  | .checking => True
  | .sending => True
  | .fetching columns => plan.script.sent = .ok columns
  | .failing err => plan.script.outcome = .error err
  | .blaming message => plan.script.outcome = .error (.engine message) ∧
      GoesOnFrom plan start steps fun _ b =>
        b.phase = .failing (.engine message) ∧ .interrupt ∉ b.token.fired
  | .stoppingTimer r => Accounts plan start steps e.queries r
  | .unregistering r => Accounts plan start steps e.queries r
  | .closing r => Accounts plan start steps e.queries r
  | .over r => Accounts plan start steps e.queries r

theorem OnAccount.append (h : OnAccount plan start steps e) (more : List ExecutionStep) :
    OnAccount plan start (steps ++ more) e := by
  unfold OnAccount at h ⊢
  split at h
  all_goals first | trivial | exact h | exact h.append more | exact ⟨h.1, h.2.append more⟩

theorem OnAccount.stops (hqueries : e.queries = n) (h : Accounts plan start steps n r) :
    OnAccount plan start steps { e with phase := .stoppingTimer r } := by
  subst hqueries
  exact h

end Accounts

theorem onAccount_run (ht : t.Fresh) (h : ({ token := t } : Execution).run? plan steps = some e) :
    OnAccount plan { token := t } steps e := by
  let start : Execution := { token := t }
  refine run_induction (P := fun steps e => OnAccount plan start steps e)
    (show OnAccount plan start [] start from trivial) (fun taken b s d hb hm ih => ?_) h
  obtain ⟨stage, hat⟩ := at_run ht hb
  have hpaced := hat.paced
  have hfired : .interrupt ∈ b.token.fired ↔ b.cancelled = true := by
    rw [hat.placed.fired, hat.placed.cancelled]
  have hfires := (timer_run ht hb).2
  -- Only a step of the executing thread accounts for anything new; the rest keep what is said.
  cases hm with
  | advances hadvances =>
    cases hadvances with
    | startsAlone => trivial
    | refuses hphase _ _ hcancelled =>
      simp only [Paced, hphase] at hpaced
      exact .stops hpaced.2.1 (.refused (goesOnFrom_concat hb ⟨hphase, hfired.mpr hcancelled⟩))
    | executes _ hsent => exact hsent
    | breaks _ hsent =>
      change plan.script.outcome = _
      rw [CursorScript.outcome, hsent]
      rfl
    | fetches hphase hfetched =>
      simp only [OnAccount, Paced, hphase] at ih hpaced
      refine .stops hpaced.2.2.1 (.answered ?_)
      rw [CursorScript.outcome, ih, hfetched]
      rfl
    | breaksOff hphase hfetched =>
      simp only [OnAccount, hphase] at ih
      change plan.script.outcome = _
      rw [CursorScript.outcome, ih, hfetched]
      rfl
    | passes hphase =>
      simp only [OnAccount, Paced, hphase] at ih hpaced
      exact .stops hpaced.2.2.1 (.passed ih)
    | cancelled hphase hcancelled =>
      simp only [OnAccount, Paced, hphase] at ih hpaced
      exact .stops hpaced.2.2.1
        (.cancelled ih (goesOnFrom_concat hb ⟨hphase, hfired.mpr hcancelled⟩))
    | doubts hphase hcancelled =>
      simp only [OnAccount, hphase] at ih
      exact ⟨ih, goesOnFrom_concat hb ⟨hphase, by simp [hfired, hcancelled]⟩⟩
    | timedOut hphase htimedOut =>
      simp only [OnAccount, Paced, hphase] at ih hpaced
      exact .stops hpaced.2.2.1
        (.timedOut ih.1 (ih.2.append _) (goesOnFrom_concat hb ⟨hphase, hfires.mp htimedOut⟩))
    | rejects hphase htimedOut =>
      simp only [OnAccount, Paced, hphase] at ih hpaced
      have hintime : .timerFires ∉ taken := by simp [← hfires, htimedOut]
      exact .stops hpaced.2.2.1
        (.rejected ih.1 (ih.2.append _) (goesOnFrom_concat hb ⟨hphase, hintime⟩))
    | endsAlone hphase =>
      simp only [OnAccount, hphase] at ih
      exact ih.append _
  | registers => trivial
  | sends => trivial
  | stopsTimer hphase =>
    simp only [OnAccount, hphase] at ih
    exact ih.append _
  | unregisters hphase =>
    simp only [OnAccount, hphase] at ih
    exact ih.append _
  | closes hphase =>
    simp only [OnAccount, hphase] at ih
    exact ih.append _
  | _ => exact ih.append _

/-- A bound on the actions that the executing thread has still to take. -/
def remaining (e : Execution) : ℕ :=
  match e.phase with
  | .registering => 12
  | .checking => 8 + 2 * (e.token.queues 0).length + e.striking.length
  | .sending => 7
  | .fetching _ => 6
  | .failing _ => 5
  | .blaming _ => 4
  | .stoppingTimer _ => 3
  | .unregistering _ => 2
  | .closing _ => 1
  | .over _ => 0

theorem At.length_own_le (h : e.At plan stage) :
    2 * (e.token.queues 0).length + e.striking.length ≤ 2 := by
  rw [h.placed.own_queue, h.placed.striking]
  cases stage with
  | inHand thread => split_ifs <;> simp [InterruptStage.strikers]
  | _ => simp [InterruptStage.strikers]

theorem Turn.of_proceed {thread : ℕ} (h : e.Turn .proceed thread) :
    thread = 0 ∧ e.phase = .checking := by
  unfold Turn at h
  split_ifs at h with hthread
  · exact ⟨hthread, h.2⟩
  · simp at h

theorem At.remaining_next (h : e.At plan stage) (hm : e.Moves plan .proceed e') :
    e'.remaining < e.remaining := by
  obtain ⟨stage', hat', -⟩ := h.next hm
  have hown := h.length_own_le
  have hown' := hat'.length_own_le
  generalize hs : ExecutionStep.proceed = s at hm
  cases hm with
  | advances hadvances =>
    cases hadvances <;> simp_all only [remaining] <;> omega
  | registers hphase =>
    simp only [remaining, hphase]
    dsimp only at hown'
    omega
  | sends hphase =>
    simp only [remaining, hphase]
    omega
  | begins hturn hqueue htoken =>
    subst hs
    obtain ⟨rfl, hphase⟩ := hturn.of_proceed
    rw [TokenThreads.step?_fire_spec hqueue htoken]
    simp only [remaining, hphase, hqueue, if_true, List.length_cons]
    omega
  | runsOther hturn hqueue htoken =>
    subst hs
    obtain ⟨rfl, hphase⟩ := hturn.of_proceed
    rw [TokenThreads.step?_fire_spec hqueue htoken]
    simp only [remaining, hphase, hqueue, if_true, List.length_cons]
    omega
  | strikes hturn hstriking =>
    subst hs
    obtain ⟨rfl, hphase⟩ := hturn.of_proceed
    have hlength := List.length_erase_of_mem hstriking
    have hpos := List.length_pos_of_mem hstriking
    simp only [remaining, interrupted, hphase, hlength]
    omega
  | stopsTimer hphase | unregisters hphase | closes hphase => simp [remaining, hphase]
  | _ => cases hs

theorem At.exists_proceed (h : e.At plan stage) (hover : e.result? = none)
    (hready : e.phase = .sending → e.interrupts ≠ 0) : ∃ e', e.step? plan .proceed = some e' := by
  change ∃ e', e.proceed? plan = some e'
  unfold proceed?
  cases hphase : e.phase with
  | registering => cases plan.underToken <;> simp [tokenStep?, TokenThreads.step?]
  | checking =>
    dsimp only
    split_ifs with hstriking hqueue
    · exact ⟨_, if_pos hstriking⟩
    · exact ⟨_, rfl⟩
    · have hown := h.placed.own_queue
      rw [if_pos (by by_contra hne; simp [hown, hne] at hqueue)] at hown
      simp [tokenStep?, hstriking, hown, TokenThreads.step?]
  | sending =>
    have hinterrupted : (e.interrupts == 0) = false := by simpa using hready hphase
    cases plan.script.sent <;> simp [hinterrupted]
  | fetching columns => cases plan.script.fetched <;> simp
  | failing err =>
    cases err with
    | other f => simp
    | engine message => cases e.cancelled <;> simp
  | blaming message => cases e.timedOut <;> simp
  | stoppingTimer r => simp
  | unregistering r => cases plan.underToken <;> simp [tokenStep?, TokenThreads.step?]
  | closing r => simp
  | _ => simp [result?, hphase] at hover

theorem At.exists_interrupted (h : e.At plan stage) (hphase : e.phase = .sending)
    (hnone : e.interrupts = 0) : ∃ more e', (∀ s ∈ more, s.isOwn = true) ∧
      e.run? plan more = some e' ∧ e'.phase = .sending ∧ e'.interrupts ≠ 0 := by
  have hpaced := h.paced
  have hinterrupts := h.interrupts
  simp only [Paced, hphase] at hpaced
  have hstrikes {e : Execution} (hphase : e.phase = .sending) (htimer : e.timer = .striking) :
      ∃ e', e.run? plan [.timerStrikes] = some e' ∧ e'.phase = .sending ∧ e'.interrupts ≠ 0 :=
    ⟨{ e.interrupted with timer := .fired }, run?_cons (if_pos htimer) rfl, hphase,
      Nat.succ_ne_zero _⟩
  have hfires {e : Execution} (hphase : e.phase = .sending) (htimer : e.timer = .due) :
      ∃ e', e.run? plan [.timerFires, .timerStrikes] = some e' ∧ e'.phase = .sending ∧
        e'.interrupts ≠ 0 := by
    obtain ⟨e', hrun, hsent⟩ :=
      hstrikes (e := { e with timer := .striking, timedOut := true }) hphase rfl
    exact ⟨e', run?_cons (if_pos htimer) hrun, hsent⟩
  cases htimer : e.timer with
  | armed =>
    obtain ⟨e', hrun, hsent⟩ := hfires (e := { e with timer := .due }) hphase rfl
    exact ⟨[.timerDue, .timerFires, .timerStrikes], e', by decide, run?_cons (if_pos htimer) hrun,
      hsent⟩
  | due =>
    obtain ⟨e', hrun, hsent⟩ := hfires hphase htimer
    exact ⟨_, e', by decide, hrun, hsent⟩
  | striking =>
    obtain ⟨e', hrun, hsent⟩ := hstrikes hphase htimer
    exact ⟨_, e', by decide, hrun, hsent⟩
  | fired => simp [htimer, hnone] at hinterrupts
  | _ => simp_all

/-- The executing thread, with its timer, always comes to an end of the query. -/
theorem At.exists_result (h : e.At plan stage) : ∃ more e' r, (∀ s ∈ more, s.isOwn = true) ∧
    e.run? plan more = some e' ∧ e'.result? = some r := by
  generalize hn : e.remaining = n
  induction n using Nat.strong_induction_on generalizing e stage with
  | _ n ih =>
    subst hn
    -- One action, once the query is interrupted if it waits for that.
    have hgoes {e' : Execution} {stage' : InterruptStage} (hat' : e'.At plan stage')
        (hle : e'.remaining ≤ e.remaining) (hover : e'.result? = none)
        (hready : e'.phase = .sending → e'.interrupts ≠ 0) :
        ∃ more d r, (∀ s ∈ more, s.isOwn = true) ∧ e'.run? plan more = some d ∧
          d.result? = some r := by
      obtain ⟨next, hnext⟩ := hat'.exists_proceed hover hready
      have hless := hat'.remaining_next (step?_moves hnext)
      obtain ⟨stage'', hat'', -⟩ := hat'.next (step?_moves hnext)
      obtain ⟨more, d, r, hmore, hrun, hr⟩ := ih _ (hless.trans_le hle) hat'' rfl
      exact ⟨.proceed :: more, d, r, List.forall_mem_cons.mpr ⟨rfl, hmore⟩, run?_cons hnext hrun, hr⟩
    cases hover : e.result? with
    | some r => exact ⟨[], e, r, nofun, rfl, hover⟩
    | none =>
      by_cases hwaits : e.phase = .sending ∧ e.interrupts = 0
      · obtain ⟨first, e', hfirst, hrun, hphase, hinterrupts⟩ := h.exists_interrupted hwaits.1 hwaits.2
        obtain ⟨stage', hat'⟩ := h.run hrun
        have hle : e'.remaining ≤ e.remaining := by simp [remaining, hphase, hwaits.1]
        obtain ⟨more, d, r, hmore, hrun', hr⟩ :=
          hgoes hat' hle (by simp [result?, hphase]) fun _ => hinterrupts
        exact ⟨first ++ more, d, r, List.forall_mem_append.mpr ⟨hfirst, hmore⟩, run?_append hrun hrun',
          hr⟩
      · exact hgoes h le_rfl hover fun hphase hnone => hwaits ⟨hphase, hnone⟩

/-- What a query leaves behind, and what its result says. -/
structure Settled (plan : ExecutionPlan) (t : TokenThreads TokenUse) (steps : List ExecutionStep)
    (e : Execution) (r : Except Failure (List StoreRow)) : Prop where
  /-- The token is what the others alone would have made of it. -/
  token : e.token.token = (foreignSteps steps).foldl Token.after t.token
  callbacks : (∀ s ∈ foreignSteps steps, s.isEdit = false) →
    e.token.token.callbacks = t.token.callbacks
  /-- The timer does not come due any more. -/
  timer : e.timer ≠ .armed ∧ (e.timer = .stopped ↔ .timerDue ∉ steps)
  closes : e.closes = 1
  refused : plan.underToken = true → t.token.cancelled = true →
    r = .error beforeStart ∧ e.queries = 0
  accounts : Accounts plan { token := t } steps e.queries r

/-- Whatever has happened to it so far, a query can be brought to its end by its own thread and timer;
and however it comes to its end, it leaves nothing behind, and its result is accounted for. -/
theorem ends_settled (ht : t.Fresh)
    (h : ({ token := t } : Execution).run? plan steps = some e) :
    (∃ more e' r, (∀ s ∈ more, s.isOwn = true) ∧ e.run? plan more = some e' ∧
        e'.result? = some r) ∧
      ∀ r, e.result? = some r → Settled plan t steps e r := by
  obtain ⟨stage, hat⟩ := at_run ht h
  refine ⟨hat.exists_result, fun r hr => ?_⟩
  have hphase := result?_eq_some_iff.mp hr
  have hpaced := hat.paced
  have haccounts := onAccount_run ht h
  simp only [Paced, OnAccount, hphase] at hpaced haccounts
  have htoken : e.token.token = (foreignSteps steps).foldl Token.after t.token := by
    have hnone : .interrupt ∉ e.token.token.callbacks := fun hmem => by
      simpa [hphase, ExecutionPhase.isRegistered] using hat.registered hmem
    rw [← withoutInterrupt_run ht h, Token.withoutInterrupt_of_not_mem hnone]
  exact {
    token := htoken
    callbacks := fun hedits => by rw [htoken, Token.callbacks_foldl_after hedits]
    timer := by
      have hdue := (timer_run ht h).1
      refine ⟨hpaced.2.1, ?_⟩
      rw [← hdue]
      cases htimer : e.timer <;> simp_all [TimerState.isPastDue]
    closes := hpaced.2.2
    refused := fun hunder hcancelled => by
      obtain ⟨-, -, hqueries, -⟩ := unsent_run ht hunder hcancelled h
      rw [hqueries] at haccounts
      cases haccounts
      exact ⟨rfl, hqueries⟩
    accounts := haccounts }

/-- The query waits until it is cancelled, when its timer is due already. -/
theorem ends_settled_cancelled : ∃ e : Execution, ({} : TokenThreads TokenUse).Fresh ∧
    ({} : Execution).run? { script := { waits := true, sent := .error (.engine "INTERRUPT") } }
      [.proceed, .proceed, .timerDue, .token (.cancel 1), .token (.fire 1), .strike 1, .timerFires,
        .proceed, .proceed, .proceed, .proceed, .proceed] = some e ∧
      e.result? = some (.error cancelledFailure) ∧
      Settled { script := { waits := true, sent := .error (.engine "INTERRUPT") } } {}
        [.proceed, .proceed, .timerDue, .token (.cancel 1), .token (.fire 1), .strike 1, .timerFires,
          .proceed, .proceed, .proceed, .proceed, .proceed] e (.error cancelledFailure) := by
  have hfresh : ({} : TokenThreads TokenUse).Fresh := ⟨nofun, nofun, nofun, rfl⟩
  refine ⟨_, hfresh, rfl, rfl, ?_⟩
  exact (ends_settled hfresh rfl).2 _ rfl

end Execution

end CohortAnalytics
