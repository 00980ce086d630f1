import CohortAnalytics.Proofs.Warehouse.Execution

/-!
Where the interrupt of a query is, from its registration on: on the token, in the hands of the thread
that has to run it, being run, or run.
-/

namespace CohortAnalytics

inductive InterruptStage
  | absent
  | listed
  | inHand (thread : ℕ)
  | striking (thread : ℕ)
  | struck
  deriving DecidableEq

namespace InterruptStage

def hasBegun : InterruptStage → Bool
  | .striking _ => true
  | .struck => true
  | _ => false

def strikers : InterruptStage → List ℕ
  | .striking thread => [thread]
  | _ => []

/-- Whether a thread has yet to run the interrupt, or to bring it to its end. -/
def isWith (thread : ℕ) (stage : InterruptStage) : Prop :=
  stage = .inHand thread ∨ stage = .striking thread

end InterruptStage

section Foreign

variable {t : Token TokenUse} {s : TokenStep TokenUse}

theorem Token.count_after_foreign (hs : s.isForeign = true) :
    (t.after s).callbacks.count .interrupt = t.callbacks.count .interrupt := by
  cases s with
  | add u c =>
    obtain ⟨-, hc⟩ : u ≠ 0 ∧ c ≠ .interrupt := by simpa [TokenStep.isForeign] using hs
    cases hcancelled : t.cancelled <;> simp [after, add, hcancelled, hc]
  | remove c =>
    have hc : c ≠ .interrupt := by simpa [TokenStep.isForeign] using hs
    exact List.count_erase_of_ne hc.symm
  | cancel u => cases hcancelled : t.cancelled <;> simp [after, cancel, hcancelled]
  | fire u => rfl

theorem Token.hands_foreign (hs : s.isForeign = true) : t.hands 0 s = [] := by
  cases s <;> simp_all [TokenStep.isForeign, hands]

theorem Token.count_hands_foreign (hs : s.isForeign = true)
    (hcancel : t.cancelled = false → .interrupt ∈ t.callbacks → s.isCancel = false) (thread : ℕ) :
    (t.hands thread s).count .interrupt = 0 := by
  cases s with
  | add u c =>
    obtain ⟨-, hc⟩ : u ≠ 0 ∧ c ≠ .interrupt := by simpa [TokenStep.isForeign] using hs
    cases hcancelled : t.cancelled <;> by_cases hu : u = thread <;>
      simp [hands, add, hcancelled, hu, hc]
  | remove c => rfl
  | cancel u =>
    cases hcancelled : t.cancelled with
    | true => simp [hands, cancel, hcancelled]
    | false =>
      have hnone : t.callbacks.count .interrupt = 0 :=
        List.count_eq_zero_of_not_mem fun hmem =>
          absurd (hcancel hcancelled hmem) (by simp [TokenStep.isCancel])
      by_cases hu : u = thread <;> simp [hands, cancel, hcancelled, hu, hnone]
  | fire u => rfl

end Foreign

/-- Nobody has heard of a query that begins with such a token, and its thread has nothing to run. -/
structure TokenThreads.Fresh (t : TokenThreads TokenUse) : Prop where
  listed : .interrupt ∉ t.token.callbacks
  queued : ∀ thread, .interrupt ∉ t.queues thread
  fired : .interrupt ∉ t.fired
  idle : t.queues 0 = []

/-- What is on record of the interrupt: it is stored once at most and with one thread at most. -/
structure Placed (t : TokenThreads TokenUse) (striking : List ℕ) (cancelled : Bool)
    (stage : InterruptStage) : Prop where
  listed : stage = .listed ↔ t.token.cancelled = false ∧ .interrupt ∈ t.token.callbacks
  once : t.token.callbacks.count .interrupt ≤ 1
  queues : ∀ thread, (t.queues thread).count .interrupt = if stage = .inHand thread then 1 else 0
  own : ∀ c ∈ t.queues 0, c = .interrupt
  striking : striking = stage.strikers
  cancelled : cancelled = stage.hasBegun
  fired : .interrupt ∈ t.fired ↔ stage.hasBegun = true

namespace Placed

variable {t t' : TokenThreads TokenUse} {striking : List ℕ} {cancelled : Bool}
variable {stage : InterruptStage}

theorem initial (h : t.Fresh) : Placed t [] false .absent where
  listed := by simp [h.listed]
  once := by simp [List.count_eq_zero_of_not_mem h.listed]
  queues thread := by simp [List.count_eq_zero_of_not_mem (h.queued thread)]
  own := by simp [h.idle]
  striking := rfl
  cancelled := rfl
  fired := by simp [h.fired, InterruptStage.hasBegun]

theorem own_queue (h : Placed t striking cancelled stage) :
    t.queues 0 = if stage = .inHand 0 then [.interrupt] else [] := by
  rw [List.eq_replicate_of_mem h.own, ← List.count_eq_length.mpr fun c hc => (h.own c hc).symm,
    h.queues 0]
  split_ifs <;> rfl

theorem handed {stage' : InterruptStage} {s : TokenStep TokenUse}
    (h : Placed t striking cancelled stage) (ht : t.step? s = some t')
    (hfire : ∀ thread, s ≠ .fire thread) (hstrikers : stage'.strikers = stage.strikers)
    (hbegun : stage'.hasBegun = stage.hasBegun)
    (hlisted : stage' = .listed ↔ (t.token.after s).cancelled = false ∧
      .interrupt ∈ (t.token.after s).callbacks)
    (honce : (t.token.after s).callbacks.count .interrupt ≤ 1)
    (hhands : ∀ thread, (if stage = .inHand thread then 1 else 0) +
      (t.token.hands thread s).count .interrupt = if stage' = .inHand thread then 1 else 0)
    (hown : ∀ c ∈ t.token.hands 0 s, c = .interrupt) : Placed t' striking cancelled stage' := by
  obtain ⟨htoken, hfired, hqueues⟩ := TokenThreads.step?_keeps_fired ht hfire
  exact {
    listed := htoken ▸ hlisted
    once := htoken ▸ honce
    queues := fun thread => by rw [hqueues, List.count_append, h.queues, hhands]
    own := by
      rw [hqueues, List.forall_mem_append]
      exact ⟨h.own, hown⟩
    striking := hstrikers ▸ h.striking
    cancelled := hbegun ▸ h.cancelled
    fired := by rw [hfired, hbegun]; exact h.fired }

theorem registers (h : Placed t striking cancelled .absent)
    (hnone : .interrupt ∉ t.token.callbacks) (ht : t.step? (.add 0 .interrupt) = some t') :
    Placed t' striking cancelled (if t.token.cancelled then .inHand 0 else .listed) := by
  have hcount := List.count_eq_zero_of_not_mem hnone
  refine h.handed ht (by simp) ?_ ?_ ?_ ?_ (fun thread => ?_) ?_ <;>
    cases hcancelled : t.token.cancelled <;>
    simp [Token.after, Token.hands, Token.add, hcancelled, hcount, hnone,
      InterruptStage.strikers, InterruptStage.hasBegun]
  by_cases hthread : 0 = thread <;> simp [hthread]

theorem unregisters (h : Placed t striking cancelled stage)
    (ht : t.step? (.remove .interrupt) = some t') :
    .interrupt ∉ t'.token.callbacks ∧
      Placed t' striking cancelled (if stage = .listed then .absent else stage) := by
  have hnone : .interrupt ∉ t.token.callbacks.erase .interrupt := by
    rw [← List.count_eq_zero, List.count_erase_self]
    have := h.once
    omega
  have hcount := List.count_eq_zero_of_not_mem hnone
  constructor
  · rw [(TokenThreads.step?_keeps_fired ht (by simp)).1]
    exact hnone
  -- A thread that has the interrupt in hand already keeps it.
  · refine h.handed ht (by simp) ?_ ?_ ?_ ?_ (fun thread => ?_) ?_ <;>
      by_cases hlisted : stage = .listed <;>
      simp [Token.after, Token.hands, Token.remove, hlisted, hnone, hcount,
        InterruptStage.strikers, InterruptStage.hasBegun]

theorem keeps {s : TokenStep TokenUse} (h : Placed t striking cancelled stage)
    (hs : s.isForeign = true) (hfire : ∀ thread, s ≠ .fire thread)
    (hcancel : stage = .listed → s.isCancel = false) (ht : t.step? s = some t') :
    Placed t' striking cancelled stage := by
  have hcount := Token.count_after_foreign (t := t.token) hs
  have hnone := Token.count_hands_foreign hs fun hlive hmem => hcancel (h.listed.mpr ⟨hlive, hmem⟩)
  refine h.handed ht hfire rfl rfl ?_ (hcount ▸ h.once) (fun thread => by rw [hnone]; rfl) ?_
  · rw [← List.count_pos_iff, hcount, List.count_pos_iff, h.listed]
    refine and_congr_left fun hmem => ?_
    cases hcancelled : t.token.cancelled with
    | true => simp [Token.after_cancelled hcancelled s]
    | false =>
      have hlive := Token.after_live hcancelled (hcancel (h.listed.mpr ⟨hcancelled, hmem⟩)) 0
      simp [hlive]
  · simp [Token.hands_foreign hs]

theorem cancels {thread : ℕ} (h : Placed t striking cancelled .listed) (hthread : thread ≠ 0)
    (ht : t.step? (.cancel thread) = some t') : Placed t' striking cancelled (.inHand thread) := by
  obtain ⟨hlive, hmem⟩ := h.listed.mp rfl
  have hcount : t.token.callbacks.count .interrupt = 1 :=
    h.once.antisymm (List.count_pos_iff.mpr hmem)
  refine h.handed ht (by simp) rfl rfl ?_ ?_ (fun u => ?_) ?_ <;>
    simp [Token.after, Token.hands, Token.cancel, hlive, hcount, hthread]
  by_cases hu : thread = u <;> simp [hu, hcount]

theorem begins {thread : ℕ} {rest : List TokenUse} (h : Placed t striking cancelled stage)
    (hqueue : t.queues thread = .interrupt :: rest) (ht : t.step? (.fire thread) = some t') :
    stage = .inHand thread ∧ Placed t' (thread :: striking) true (.striking thread) := by
  obtain rfl := TokenThreads.step?_fire_spec hqueue ht
  have hthread := h.queues thread
  rw [hqueue, List.count_cons_self] at hthread
  have hstage : stage = .inHand thread := by
    by_contra hne
    rw [if_neg hne] at hthread
    cases hthread
  subst hstage
  refine ⟨rfl, ?_⟩
  exact {
    listed := by simpa using h.listed
    once := h.once
    queues := fun u => by
      have hu := h.queues u
      by_cases heq : u = thread <;> simp_all [eq_comm]
    own := by
      intro c hc
      have hown := h.own c
      by_cases hu : 0 = thread <;> simp_all
    striking := by simp [h.striking, InterruptStage.strikers]
    cancelled := rfl
    fired := by simp [InterruptStage.hasBegun] }

theorem runsOther {thread n : ℕ} {rest : List TokenUse} (h : Placed t striking cancelled stage)
    (hqueue : t.queues thread = .other n :: rest) (ht : t.step? (.fire thread) = some t') :
    Placed t' striking cancelled stage := by
  obtain rfl := TokenThreads.step?_fire_spec hqueue ht
  exact {
    listed := h.listed
    once := h.once
    queues := fun u => by
      have hu := h.queues u
      by_cases heq : u = thread <;> simp_all
    own := by
      intro c hc
      have hown := h.own c
      by_cases hu : 0 = thread <;> simp_all
    striking := h.striking
    cancelled := h.cancelled
    fired := by simpa using h.fired }

theorem strikes {thread : ℕ} (h : Placed t striking cancelled stage) (hmem : thread ∈ striking) :
    stage = .striking thread ∧ Placed t (striking.erase thread) cancelled .struck := by
  rw [h.striking] at hmem
  cases stage with
  | striking u =>
    obtain rfl := List.mem_singleton.mp hmem
    exact ⟨rfl, by simpa using h.listed, h.once, by simpa using h.queues, h.own,
      by simp [h.striking, InterruptStage.strikers], h.cancelled, h.fired⟩
  | _ => exact absurd hmem List.not_mem_nil

end Placed

/-- Between registering the interrupt and taking it off the token again. -/
def ExecutionPhase.isRegistered : ExecutionPhase → Bool
  | .registering => false
  | .closing _ => false
  | .over _ => false
  | _ => true

/-- Steps of the executing thread, and of threads that cancel its token. -/
def ExecutionStep.isOfCancelling : ExecutionStep → Bool
  | .proceed => true
  | .token (.cancel _) => true
  | .token (.fire _) => true
  | .strike _ => true
  | _ => false

/-- The timer goes on to interrupt the query even if it is stopped. -/
def TimerState.hasSetOut : TimerState → Bool
  | .due => true
  | .striking => true
  | _ => false

namespace Execution

variable {plan : ExecutionPlan} {e e' : Execution} {s : ExecutionStep}
variable {stage stage' : InterruptStage}

/-- A query whose interrupt is at a stage. -/
structure At (plan : ExecutionPlan) (e : Execution) (stage : InterruptStage) : Prop where
  placed : Placed e.token e.striking e.cancelled stage
  paced : e.Paced
  registering : e.phase = .registering → stage = .absent
  registered : .interrupt ∈ e.token.token.callbacks →
    plan.underToken = true ∧ e.phase.isRegistered = true
  present : plan.underToken = true → e.phase.isRegistered = true → stage ≠ .absent
  own : stage.isWith 0 → e.phase = .checking
  interrupts : e.interrupts =
    (if stage = .struck then 1 else 0) + if e.timer = .fired then 1 else 0
  late : e.lateInterrupts ≤ e.interrupts

/-- What a step does to the interrupt. -/
inductive Follows (e : Execution) : ExecutionStep → InterruptStage → InterruptStage → Prop
  | stays {s : ExecutionStep} (stage : InterruptStage) : Follows e s stage stage
  | registers (hphase : e.phase = .registering) :
      Follows e .proceed .absent (if e.token.token.cancelled then .inHand 0 else .listed)
  | cancels (thread : ℕ) : Follows e (.token (.cancel thread)) .listed (.inHand thread)
  | begins {s : ExecutionStep} {thread : ℕ} (hs : e.Turn s thread) :
      Follows e s (.inHand thread) (.striking thread)
  | strikes {s : ExecutionStep} {thread : ℕ} (hs : e.Turn s thread) :
      Follows e s (.striking thread) .struck
  | unregisters {r : Except Failure (List StoreRow)} (hphase : e.phase = .unregistering r) :
      Follows e .proceed .listed .absent

theorem at_initial {t : TokenThreads TokenUse} (h : t.Fresh) :
    ({ token := t } : Execution).At plan .absent where
  placed := .initial h
  paced := ⟨rfl, rfl, rfl⟩
  registering _ := rfl
  registered hmem := absurd hmem h.listed
  present _ h := by cases h
  own := by simp [InterruptStage.isWith]
  interrupts := rfl
  late := Nat.le_refl 0

theorem At.not_with_own (h : e.At plan stage) (hqueue : e.token.queues 0 = [])
    (hstriking : 0 ∉ e.striking) : ¬stage.isWith 0 := by
  rintro (rfl | rfl)
  · rw [h.placed.own_queue] at hqueue
    cases hqueue
  · rw [h.placed.striking] at hstriking
    exact hstriking (List.mem_singleton_self 0)

theorem At.within (h : e.At plan stage) (hphase : e'.phase = e.phase) (hpaced : e'.Paced)
    (hplaced : Placed e'.token e'.striking e'.cancelled stage')
    (hlisted : .interrupt ∈ e'.token.token.callbacks → .interrupt ∈ e.token.token.callbacks)
    (habsent : stage' = .absent ↔ stage = .absent) (hown : stage'.isWith 0 → stage.isWith 0)
    (hinterrupts : e'.interrupts =
      (if stage' = .struck then 1 else 0) + if e'.timer = .fired then 1 else 0)
    (hlate : e'.lateInterrupts ≤ e'.interrupts) : e'.At plan stage' where
  placed := hplaced
  paced := hpaced
  registering hregistering := habsent.mpr (h.registering (hphase ▸ hregistering))
  registered hmem := hphase ▸ h.registered (hlisted hmem)
  present hunder hregistered := habsent.not.mpr (h.present hunder (hphase ▸ hregistered))
  own hwith := hphase.trans (h.own (hown hwith))
  interrupts := hinterrupts
  late := hlate

theorem At.late_interrupted (h : e.At plan stage) :
    e.interrupted.lateInterrupts ≤ e.interrupted.interrupts := by
  have hlate := h.late
  simp only [interrupted]
  split_ifs <;> omega

/-- Actions that only bring the executing thread on leave the interrupt where it is. -/
theorem At.advances {phase : ExecutionPhase} (h : e.At plan stage)
    (hadvances : e.Advances plan phase) (hpaced : ({ e with phase } : Execution).Paced) :
    ({ e with phase } : Execution).At plan stage := by
  have hown := h.own
  have hregistered := h.registered
  have hpresent := h.present
  refine ⟨h.placed, hpaced, ?_, ?_, ?_, ?_, h.interrupts, h.late⟩
  · cases hadvances <;> simp
  · cases hadvances <;> simp_all [ExecutionPhase.isRegistered]
  · cases hadvances <;> simp_all [ExecutionPhase.isRegistered]
  · cases hadvances with
    | refuses _ hqueue hstriking => exact fun hwith => absurd hwith (h.not_with_own hqueue hstriking)
    | startsAlone => exact fun _ => rfl
    | _ => simp_all

theorem At.registers {token : TokenThreads TokenUse} (h : e.At plan .absent)
    (hphase : e.phase = .registering) (hunder : plan.underToken = true)
    (htoken : e.token.step? (.add 0 .interrupt) = some token)
    (hpaced : ({ e with phase := .checking, token } : Execution).Paced) :
    ({ e with phase := .checking, token } : Execution).At plan
      (if e.token.token.cancelled then .inHand 0 else .listed) := by
  have hnone : .interrupt ∉ e.token.token.callbacks := by
    intro hmem
    simpa [hphase, ExecutionPhase.isRegistered] using h.registered hmem
  refine ⟨h.placed.registers hnone htoken, hpaced, by simp, fun _ => ⟨hunder, rfl⟩, ?_,
    fun _ => rfl, ?_, h.late⟩
  · split_ifs <;> simp
  · rw [h.interrupts]
    split_ifs <;> simp_all

theorem At.sends (h : e.At plan stage) (hphase : e.phase = .checking)
    (hqueue : e.token.queues 0 = []) (hstriking : 0 ∉ e.striking)
    (hpaced : ({ e with
      phase := .sending, timer := .armed, queries := e.queries + 1 } : Execution).Paced) :
    ({ e with phase := .sending, timer := .armed, queries := e.queries + 1 } : Execution).At
      plan stage := by
  have htimer : e.timer = .idle := by
    have hidle := h.paced
    simp only [Paced, hphase] at hidle
    exact hidle.1
  refine ⟨h.placed, hpaced, by simp, fun hmem => ⟨(h.registered hmem).1, rfl⟩,
    fun hunder _ => h.present hunder (by rw [hphase]; rfl),
    fun hwith => absurd hwith (h.not_with_own hqueue hstriking), ?_, h.late⟩
  simpa [htimer] using h.interrupts

theorem At.stopsTimer {r : Except Failure (List StoreRow)} (h : e.At plan stage)
    (hphase : e.phase = .stoppingTimer r) {timer : TimerState}
    (htimer : timer = .fired ↔ e.timer = .fired)
    (hpaced : ({ e with phase := .unregistering r, timer } : Execution).Paced) :
    ({ e with phase := .unregistering r, timer } : Execution).At plan stage := by
  have hown := h.own
  refine ⟨h.placed, hpaced, by simp, fun hmem => ⟨(h.registered hmem).1, rfl⟩,
    fun hunder _ => h.present hunder (by rw [hphase]; rfl), by simpa [hphase] using hown, ?_,
    h.late⟩
  simpa only [htimer] using h.interrupts

/-- Taken off the token, the interrupt is nowhere unless a thread was handed it before. -/
theorem At.unregisters {r : Except Failure (List StoreRow)} {token : TokenThreads TokenUse}
    (h : e.At plan stage) (hphase : e.phase = .unregistering r)
    (htoken : e.token.step? (.remove .interrupt) = some token)
    (hpaced : ({ e with phase := .closing r, token } : Execution).Paced) :
    ({ e with phase := .closing r, token } : Execution).At plan
      (if stage = .listed then .absent else stage) := by
  have hown := h.own
  obtain ⟨hnone, hplaced⟩ := h.placed.unregisters htoken
  refine ⟨hplaced, hpaced, by simp, fun hmem => absurd hmem hnone,
    by simp [ExecutionPhase.isRegistered], ?_, ?_, h.late⟩
  · split_ifs
    · simp [InterruptStage.isWith]
    · simpa [hphase] using hown
  · rw [h.interrupts]
    split_ifs <;> simp_all

theorem At.closes {r : Except Failure (List StoreRow)} (h : e.At plan stage)
    (hphase : e.phase = .closing r)
    (hpaced : ({ e with phase := .over r, closes := e.closes + 1 } : Execution).Paced) :
    ({ e with phase := .over r, closes := e.closes + 1 } : Execution).At plan stage := by
  have hown := h.own
  refine ⟨h.placed, hpaced, by simp, ?_, by simp [ExecutionPhase.isRegistered], ?_, h.interrupts,
    h.late⟩
  · intro hmem
    simpa [hphase, ExecutionPhase.isRegistered] using h.registered hmem
  · simpa [hphase] using hown

/-- Of what others do with the token, only a cancel touches the interrupt, and only while the token
stores it. -/
theorem At.foreign {s : TokenStep TokenUse} {token : TokenThreads TokenUse} (h : e.At plan stage)
    (hs : s.isForeign = true) (hfire : ∀ thread, s ≠ .fire thread)
    (htoken : e.token.step? s = some token) (hpaced : ({ e with token } : Execution).Paced) :
    ∃ stage', ({ e with token } : Execution).At plan stage' ∧
      e.Follows (.token s) stage stage' := by
  have hlisted : .interrupt ∈ token.token.callbacks → .interrupt ∈ e.token.token.callbacks := by
    rw [(TokenThreads.step?_keeps_fired htoken hfire).1, ← List.count_pos_iff,
      Token.count_after_foreign hs, List.count_pos_iff]
    exact id
  by_cases hhanded : stage = .listed ∧ s.isCancel = true
  · obtain ⟨rfl, hcancel⟩ := hhanded
    cases s with
    | cancel thread =>
      have hthread : thread ≠ 0 := by simpa [TokenStep.isForeign] using hs
      exact ⟨_, h.within rfl hpaced (h.placed.cancels hthread htoken) hlisted (by simp)
        (by simp [InterruptStage.isWith, hthread]) h.interrupts h.late, .cancels thread⟩
    | _ => cases hcancel
  · rw [not_and, Bool.not_eq_true] at hhanded
    exact ⟨stage, h.within rfl hpaced (h.placed.keeps hs hfire hhanded htoken) hlisted .rfl id
      h.interrupts h.late, .stays _⟩

theorem At.next (h : e.At plan stage) (hm : e.Moves plan s e') :
    ∃ stage', e'.At plan stage' ∧ e.Follows s stage stage' := by
  have hpaced := h.paced.next hm
  cases hm with
  | advances hadvances => exact ⟨stage, h.advances hadvances hpaced, .stays _⟩
  | registers hphase hunder htoken =>
    obtain rfl := h.registering hphase
    exact ⟨_, h.registers hphase hunder htoken hpaced, .registers hphase⟩
  | sends hphase hqueue hstriking =>
    exact ⟨stage, h.sends hphase hqueue hstriking hpaced, .stays _⟩
  | stopsTimer hphase =>
    refine ⟨stage, h.stopsTimer hphase ?_ hpaced, .stays _⟩
    split_ifs with hearly
    · rcases hearly with hearly | hearly <;> simp [hearly]
    · rfl
  | unregisters hphase hunder htoken =>
    refine ⟨_, h.unregisters hphase htoken hpaced, ?_⟩
    split_ifs with hlisted
    · subst hlisted
      exact .unregisters hphase
    · exact .stays _
  | closes hphase => exact ⟨stage, h.closes hphase hpaced, .stays _⟩
  | begins hs hqueue htoken =>
    obtain ⟨rfl, hplaced⟩ := h.placed.begins hqueue htoken
    refine ⟨_, h.within rfl hpaced hplaced ?_ (by simp) (by simp [InterruptStage.isWith])
      h.interrupts h.late, .begins hs⟩
    rw [TokenThreads.step?_fire_spec hqueue htoken]
    exact id
  | runsOther hs hqueue htoken =>
    refine ⟨stage, h.within rfl hpaced (h.placed.runsOther hqueue htoken) ?_ .rfl id h.interrupts
      h.late, .stays _⟩
    rw [TokenThreads.step?_fire_spec hqueue htoken]
    exact id
  | strikes hs hstriking =>
    obtain ⟨rfl, hplaced⟩ := h.placed.strikes hstriking
    refine ⟨_, h.within rfl hpaced hplaced id (by simp) (by simp [InterruptStage.isWith]) ?_
      h.late_interrupted, .strikes hs⟩
    simp [interrupted, h.interrupts, Nat.add_comm]
  | token hs hfire htoken => exact h.foreign hs hfire htoken hpaced
  | timerDue htimer =>
    exact ⟨stage, h.within rfl hpaced h.placed id .rfl id (by simpa [htimer] using h.interrupts)
      h.late, .stays _⟩
  | timerFires htimer =>
    exact ⟨stage, h.within rfl hpaced h.placed id .rfl id (by simpa [htimer] using h.interrupts)
      h.late, .stays _⟩
  | timerStrikes htimer =>
    refine ⟨stage, h.within rfl hpaced h.placed id .rfl id ?_ h.late_interrupted, .stays _⟩
    simp [interrupted, h.interrupts, htimer]

variable {t : TokenThreads TokenUse} {steps : List ExecutionStep}

theorem At.run (h : e.At plan stage) (hrun : e.run? plan steps = some e') :
    ∃ stage', e'.At plan stage' :=
  run_induction (P := fun _ e => ∃ stage, e.At plan stage) ⟨stage, h⟩
    (fun _ _ _ _ _ hm ⟨_, hat⟩ => (hat.next hm).imp fun _ => And.left) hrun

theorem at_run (ht : t.Fresh) (h : ({ token := t } : Execution).run? plan steps = some e) :
    ∃ stage, e.At plan stage := (at_initial ht).run h

/-- A thread has the interrupt in hand, or is about to strike the cursor. -/
def SetOut (e : Execution) (thread : ℕ) : Prop :=
  .interrupt ∈ e.token.queues thread ∨ thread ∈ e.striking

theorem At.setOut_iff (h : e.At plan stage) {thread : ℕ} : e.SetOut thread ↔ stage.isWith thread := by
  refine or_congr ?_ ?_
  · rw [← List.count_pos_iff, h.placed.queues]
    split_ifs <;> simp_all
  · rw [h.placed.striking]
    cases stage <;> simp [InterruptStage.strikers, eq_comm]

/-- A thread other than the executing one that sets out has cancelled the token while the interrupt
was on it. -/
theorem cancelled_of_setOut (ht : t.Fresh)
    (h : ({ token := t } : Execution).run? plan steps = some e) {thread : ℕ}
    (hthread : thread ≠ 0) (hout : e.SetOut thread) :
    ∃ taken rest b, steps = taken ++ .token (.cancel thread) :: rest ∧
      ({ token := t } : Execution).run? plan taken = some b ∧ b.token.token.cancelled = false ∧
      .interrupt ∈ b.token.token.callbacks := by
  have hall := run_induction (P := fun steps e => ∃ stage, e.At plan stage ∧
    (stage.isWith thread → ∃ taken rest b, steps = taken ++ .token (.cancel thread) :: rest ∧
      ({ token := t } : Execution).run? plan taken = some b ∧ b.token.token.cancelled = false ∧
      .interrupt ∈ b.token.token.callbacks))
    ⟨.absent, at_initial ht, by simp [InterruptStage.isWith]⟩
    (fun taken b s d hb hm ⟨stage, hat, ih⟩ => ?_) h
  · obtain ⟨stage, hat, horigin⟩ := hall
    exact horigin (hat.setOut_iff.mp hout)
  · obtain ⟨stage', hat', hfollows⟩ := hat.next hm
    refine ⟨stage', hat', fun hwith => ?_⟩
    have hlater (h : stage.isWith thread) : ∃ before rest c,
        taken ++ [s] = before ++ .token (.cancel thread) :: rest ∧
          ({ token := t } : Execution).run? plan before = some c ∧
          c.token.token.cancelled = false ∧ .interrupt ∈ c.token.token.callbacks := by
      obtain ⟨before, rest, c, rfl, hc⟩ := ih h
      exact ⟨before, rest ++ [s], c, by simp, hc⟩
    cases hfollows with
    | stays => exact hlater hwith
    | registers =>
      split_ifs at hwith
      · exact absurd (by simpa [InterruptStage.isWith] using hwith) hthread.symm
      · simp [InterruptStage.isWith] at hwith
    | cancels u =>
      obtain rfl : u = thread := by simpa [InterruptStage.isWith] using hwith
      obtain ⟨hlive, hmem⟩ := hat.placed.listed.mp rfl
      exact ⟨taken, [], b, rfl, hb, hlive, hmem⟩
    | @begins _ u =>
      obtain rfl : u = thread := by simpa [InterruptStage.isWith] using hwith
      exact hlater (.inl rfl)
    | strikes => simp [InterruptStage.isWith] at hwith
    | unregisters => simp [InterruptStage.isWith] at hwith

theorem result?_eq_some_iff {r : Except Failure (List StoreRow)} :
    e.result? = some r ↔ e.phase = .over r := by
  unfold result?
  cases e.phase <;> simp

structure Quiet (plan : ExecutionPlan) (e : Execution) : Prop where
  ended : ∃ r, e.phase = .over r
  nobody : ∃ stage, e.At plan stage ∧ ∀ thread, ¬stage.isWith thread
  timer : e.timer.hasSetOut = false

theorem Quiet.next (h : e.Quiet plan) (hm : e.Moves plan s e') :
    e'.Quiet plan ∧ e'.lateInterrupts = e.lateInterrupts := by
  obtain ⟨⟨r, hphase⟩, ⟨stage, hat, hnobody⟩, htimer⟩ := h
  have hunlisted : stage ≠ .listed := fun hlisted => by
    simpa [hphase, ExecutionPhase.isRegistered] using
      hat.registered (hat.placed.listed.mp hlisted).2
  have harmed : e.timer ≠ .armed := by
    have hpaced := hat.paced
    simp only [Paced, hphase] at hpaced
    exact hpaced.2.1
  obtain ⟨stage', hat', hfollows⟩ := hat.next hm
  obtain rfl : stage' = stage := by
    cases hfollows with
    | stays => rfl
    | registers hregistering => simp [hphase] at hregistering
    | cancels thread => exact absurd rfl hunlisted
    | @begins _ thread => exact absurd (.inl rfl) (hnobody thread)
    | @strikes _ thread => exact absurd (.inr rfl) (hnobody thread)
    | unregisters => exact absurd rfl hunlisted
  have hstays {e' : Execution} (hat' : e'.At plan stage') (h : e'.phase = e.phase ∧ e'.timer = e.timer) :
      e'.Quiet plan := ⟨⟨r, h.1.trans hphase⟩, ⟨stage', hat', hnobody⟩, h.2 ▸ htimer⟩
  cases hm with
  | advances hadvances => cases hadvances <;> simp_all
  | registers hregistering => simp [hphase] at hregistering
  | sends hchecking => simp [hphase] at hchecking
  | stopsTimer hstopping => simp [hphase] at hstopping
  | unregisters hunregistering => simp [hphase] at hunregistering
  | closes hclosing => simp [hphase] at hclosing
  | begins => exact ⟨hstays hat' ⟨rfl, rfl⟩, rfl⟩
  | runsOther => exact ⟨hstays hat' ⟨rfl, rfl⟩, rfl⟩
  | @strikes _ thread _ hstriking =>
    exact absurd (hat.setOut_iff.mp (.inr hstriking)) (hnobody thread)
  | token => exact ⟨hstays hat' ⟨rfl, rfl⟩, rfl⟩
  | timerDue h => exact absurd h harmed
  | timerFires h => simp [h, TimerState.hasSetOut] at htimer
  | timerStrikes h => simp [h, TimerState.hasSetOut] at htimer

theorem Quiet.run (h : e.Quiet plan) (hrun : e.run? plan steps = some e') :
    e'.lateInterrupts = e.lateInterrupts :=
  (run_induction (P := fun _ e' => e'.Quiet plan ∧ e'.lateInterrupts = e.lateInterrupts) ⟨h, rfl⟩
    (fun _ _ _ _ _ hm ⟨hquiet, hlate⟩ =>
      (hquiet.next hm).imp_right fun hsame => hsame.trans hlate) hrun).2

theorem exists_striking {thread : ℕ} (hthread : thread ≠ 0) (hfree : thread ∉ e.striking)
    (hqueue : .interrupt ∈ e.token.queues thread) :
    ∃ more e', e.run? plan more = some e' ∧ thread ∈ e'.striking ∧ e'.closes = e.closes ∧
      e'.lateInterrupts = e.lateInterrupts := by
  generalize hq : e.token.queues thread = queue at hqueue
  induction queue generalizing e with
  | nil => exact absurd hqueue List.not_mem_nil
  | cons c rest ih =>
    let token : TokenThreads TokenUse := { e.token with
      queues := fun u => if u = thread then rest else e.token.queues u
      fired := e.token.fired ++ [c] }
    have hstep : e.step? plan (.token (.fire thread)) =
        some (({ e with token } : Execution).enter thread c) := by
      simp [step?, TokenStep.isForeign, tokenStep?, TokenThreads.step?, hthread, hfree, hq, token]
    cases c with
    | interrupt => exact ⟨[.token (.fire thread)], _, run?_cons hstep rfl, List.mem_cons_self, rfl, rfl⟩
    | other n =>
      obtain ⟨more, e', hrun, hstriking⟩ :=
        ih (e := { e with token }) hfree (if_pos rfl) (by simpa using hqueue)
      exact ⟨_ :: more, e', run?_cons hstep hrun, hstriking⟩

theorem strikes_late (plan : ExecutionPlan) {thread : ℕ} (hcloses : e.closes = 1) (hthread : thread ≠ 0)
    (hstriking : thread ∈ e.striking) : ∃ e', e.run? plan [.strike thread] = some e' ∧
      e'.lateInterrupts = e.lateInterrupts + 1 :=
  ⟨{ e.interrupted with striking := e.striking.erase thread },
    run?_cons (by simp [step?, strike?, hthread, hstriking]) rfl, by simp [interrupted, hcloses]⟩

theorem exists_late_of_setOut (hat : e.At plan stage) (hcloses : e.closes = 1) {thread : ℕ}
    (hthread : thread ≠ 0) (hout : e.SetOut thread) :
    ∃ more e', e.run? plan more = some e' ∧ e.lateInterrupts < e'.lateInterrupts := by
  rcases hat.setOut_iff.mp hout with rfl | rfl
  · have hfree : thread ∉ e.striking := by
      rw [hat.placed.striking]
      exact List.not_mem_nil
    have hqueue : .interrupt ∈ e.token.queues thread := by
      rw [← List.count_pos_iff, hat.placed.queues, if_pos rfl]
      exact Nat.one_pos
    obtain ⟨more, d, hrun, hstriking, hcloses', hlate⟩ := exists_striking hthread hfree hqueue
    obtain ⟨e', hstrikes, hlate'⟩ := strikes_late plan (hcloses'.trans hcloses) hthread hstriking
    exact ⟨more ++ [.strike thread], e', run?_append hrun hstrikes, by omega⟩
  · have hstriking : thread ∈ e.striking := by
      rw [hat.placed.striking]
      exact List.mem_singleton_self thread
    obtain ⟨e', hstrikes, hlate⟩ := strikes_late plan hcloses hthread hstriking
    exact ⟨_, e', hstrikes, by omega⟩

theorem exists_late_of_timer (hcloses : e.closes = 1) (htimer : e.timer.hasSetOut = true) :
    ∃ more e', e.run? plan more = some e' ∧ e.lateInterrupts < e'.lateInterrupts := by
  have hstrikes {e : Execution} (hcloses : e.closes = 1) (htimer : e.timer = .striking) :
      e.run? plan [.timerStrikes] = some { e.interrupted with timer := .fired } ∧
        e.lateInterrupts < e.interrupted.lateInterrupts :=
    ⟨run?_cons (if_pos htimer) rfl, by simp [interrupted, hcloses]⟩
  cases hstage : e.timer with
  | due =>
    let d : Execution := { e with timer := .striking, timedOut := true }
    obtain ⟨hrun, hlate⟩ := hstrikes (e := d) hcloses rfl
    exact ⟨[.timerFires, .timerStrikes], _, run?_cons (if_pos hstage) hrun, hlate⟩
  | striking =>
    obtain ⟨hrun, hlate⟩ := hstrikes hcloses hstage
    exact ⟨[.timerStrikes], _, hrun, hlate⟩
  | _ => simp [hstage, TimerState.hasSetOut] at htimer

/-- A query that is over may still be interrupted: by a thread that has cancelled the token while the
interrupt was on it, or by a timer that had been due. Nobody else does, and neither does so twice. -/
theorem interrupted_late_iff_setOut (ht : t.Fresh) {r : Except Failure (List StoreRow)}
    (h : ({ token := t } : Execution).run? plan steps = some e) (hover : e.result? = some r) :
    e.lateInterrupts ≤ (if e.timer = .stopped then 1 else 2) ∧
      ((∃ more e', e.run? plan more = some e' ∧ e.lateInterrupts < e'.lateInterrupts) ↔
        (∃ thread, e.SetOut thread) ∨ e.timer.hasSetOut = true) ∧
      ∀ thread, e.SetOut thread →
        ∃ taken rest b, steps = taken ++ .token (.cancel thread) :: rest ∧
          ({ token := t } : Execution).run? plan taken = some b ∧
          b.token.token.cancelled = false ∧ .interrupt ∈ b.token.token.callbacks := by
  obtain ⟨stage, hat⟩ := at_run ht h
  rw [result?_eq_some_iff] at hover
  have hcloses : e.closes = 1 := by
    have hpaced := hat.paced
    simp only [Paced, hover] at hpaced
    exact hpaced.2.2
  have hother {thread : ℕ} (hout : e.SetOut thread) : thread ≠ 0 := by
    rintro rfl
    have hchecking := hat.own (hat.setOut_iff.mp hout)
    rw [hover] at hchecking
    cases hchecking
  refine ⟨?_, ⟨?_, ?_⟩, fun thread hout => cancelled_of_setOut ht h (hother hout) hout⟩
  · have hlate := hat.late
    rw [hat.interrupts] at hlate
    split_ifs at hlate ⊢ <;> simp_all <;> omega
  · rintro ⟨more, e', hrun, hlate⟩
    -- With nobody on the way every later state is quiet, too.
    by_contra hnobody
    rw [not_or, not_exists] at hnobody
    have hquiet : e.Quiet plan := ⟨⟨r, hover⟩,
      ⟨stage, hat, fun thread hwith => hnobody.1 thread (hat.setOut_iff.mpr hwith)⟩,
      by simpa using hnobody.2⟩
    exact hlate.ne (hquiet.run hrun).symm
  · rintro (⟨thread, hout⟩ | htimer)
    · exact exists_late_of_setOut hat hcloses (hother hout) hout
    · exact exists_late_of_timer hcloses htimer

/-- The token is cancelled while the rows are fetched, and the canceller comes to the interrupt when
the cursor is closed. -/
def lateCancel : List ExecutionStep :=
  [.proceed, .proceed, .proceed, .token (.cancel 1), .proceed, .proceed, .proceed, .proceed]

theorem interrupted_late_iff_setOut_lateCancel : ∃ e r,
    ({} : TokenThreads TokenUse).Fresh ∧
      ({} : Execution).run? { script := {} } lateCancel = some e ∧ e.result? = some r ∧
      e.SetOut 1 ∧ ∃ more e', e.run? { script := {} } more = some e' ∧
        e.lateInterrupts < e'.lateInterrupts := by
  have hfresh : ({} : TokenThreads TokenUse).Fresh := ⟨nofun, nofun, nofun, rfl⟩
  have hrun : (({} : Execution).run? { script := {} } lateCancel).map
      (fun e => (e.result?.isSome, e.token.queues 1)) = some (true, [.interrupt]) := by
    decide +kernel
  obtain ⟨e, he, hend⟩ := Option.map_eq_some_iff.mp hrun
  obtain ⟨hsome, hqueue⟩ := Prod.mk.inj hend
  obtain ⟨r, hr⟩ := Option.isSome_iff_exists.mp hsome
  have hout : e.SetOut 1 := .inl (hqueue ▸ List.mem_singleton_self _)
  exact ⟨e, r, hfresh, he, hr, hout,
    (interrupted_late_iff_setOut hfresh he hr).2.1.mpr (.inl ⟨1, hout⟩)⟩

theorem interrupts_closed_cursor :
    ¬ ∀ (plan : ExecutionPlan) (steps : List ExecutionStep) (e : Execution),
      (∀ s ∈ steps, s.isOfCancelling = true) →
        ({} : Execution).run? plan steps = some e → e.lateInterrupts = 0 := by
  intro h
  have hrun : (({} : Execution).run? { script := {} }
      (lateCancel ++ [.token (.fire 1), .strike 1])).map lateInterrupts = some 1 := by
    decide +kernel
  obtain ⟨e, he, hlate⟩ := Option.map_eq_some_iff.mp hrun
  rw [h _ _ e (by decide) he] at hlate
  cases hlate

end Execution

end CohortAnalytics
