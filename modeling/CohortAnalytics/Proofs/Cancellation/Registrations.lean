import CohortAnalytics.Cancellation.Token
import Mathlib

/-!
What becomes of the registrations on a token, whatever the order in which its threads come. Those
that stand when the token is cancelled are run once by the thread that cancels it; a later one is
run once by the thread that makes it. Threads are numbered freely: a call that a callback makes counts
as one of a thread of its own.
-/

namespace CohortAnalytics

variable {κ : Type}

def TokenStep.isCancel : TokenStep κ → Bool
  | .cancel _ => true
  | _ => false

/-- A callback that a step of a run registers: the place of the step, and who takes it. -/
structure Registration (κ : Type) where
  place : ℕ
  thread : ℕ
  callback : κ
  deriving DecidableEq

def TokenStep.registration? (place : ℕ) : TokenStep κ → Option (Registration κ)
  | .add thread c => some ⟨place, thread, c⟩
  | _ => none

/-- The registrations that steps make, the first of them being taken at a place. -/
def registrations : ℕ → List (TokenStep κ) → List (Registration κ)
  | _, [] => []
  | place, s :: rest => (s.registration? place).toList ++ registrations (place + 1) rest

theorem place_of_mem_registrations {steps : List (TokenStep κ)} {place : ℕ} {r : Registration κ}
    (h : r ∈ registrations place steps) : place ≤ r.place ∧ r.place < place + steps.length := by
  induction steps generalizing place with
  | nil => exact absurd h List.not_mem_nil
  | cons s rest ih =>
    rw [registrations, List.mem_append] at h
    rw [List.length_cons]
    rcases h with hnow | hlater
    · cases s <;> simp_all [TokenStep.registration?]
    · have := ih hlater
      omega

theorem nodup_registrations (place : ℕ) (steps : List (TokenStep κ)) :
    (registrations place steps).Nodup := by
  induction steps generalizing place with
  | nil => exact List.nodup_nil
  | cons s rest ih =>
    refine List.nodup_append.mpr ⟨?_, ih (place + 1), ?_⟩
    · cases s <;> simp [TokenStep.registration?]
    · rintro r hnow _ hlater rfl
      have := place_of_mem_registrations hlater
      cases s <;> simp_all [TokenStep.registration?]

theorem not_late_of_early {before after : List (TokenStep κ)} {r : Registration κ}
    (h : r ∈ registrations 0 before) : r ∉ registrations (before.length + 1) after := by
  intro hlate
  have := place_of_mem_registrations h
  have := place_of_mem_registrations hlate
  omega

theorem registrations_concat (place : ℕ) (steps : List (TokenStep κ)) (s : TokenStep κ) :
    registrations place (steps ++ [s]) =
      registrations place steps ++ (s.registration? (place + steps.length)).toList := by
  induction steps generalizing place with
  | nil => simp [registrations]
  | cons t rest ih =>
    rw [List.cons_append, registrations, registrations, ih, List.append_assoc, List.length_cons]
    congr 4
    omega

namespace TokenThreads

/-- What a thread ran of all that was run. -/
def ranBy (thread : ℕ) (ran : List (ℕ × κ)) : List κ :=
  (ran.filter fun f => f.1 = thread).map Prod.snd

theorem ranBy_append (thread : ℕ) (ran more : List (ℕ × κ)) :
    ranBy thread (ran ++ more) = ranBy thread ran ++ ranBy thread more := by
  simp [ranBy]

theorem eq_nil_of_ranBy {ran : List (ℕ × κ)} (h : ∀ thread, ranBy thread ran = []) : ran = [] := by
  apply List.eq_nil_iff_forall_not_mem.mpr
  intro f hf
  have hran : f.2 ∈ ranBy f.1 ran := List.mem_map.mpr ⟨f, by simp [hf], rfl⟩
  rw [h f.1] at hran
  exact absurd hran List.not_mem_nil

theorem queues_enqueue (s : TokenThreads κ) (u : ℕ) (cs : List κ) (thread : ℕ) :
    s.enqueue u cs thread = s.queues thread ++ if u = thread then cs else [] := by
  by_cases h : u = thread
  · simp [enqueue, h]
  · simp [enqueue, h, Ne.symm h]

end TokenThreads

variable [DecidableEq κ]

/-- What a step taken at a place leaves of the registrations that stood. -/
def TokenStep.leaves (standing : List (Registration κ)) (place : ℕ) :
    TokenStep κ → List (Registration κ)
  | .add thread c => standing ++ [⟨place, thread, c⟩]
  | .remove c => standing.eraseP fun r => r.callback = c
  | _ => standing

/-- The registrations that have been made on a new token, and not been taken out again. -/
def standing (steps : List (TokenStep κ)) : List (Registration κ) :=
  steps.zipIdx.foldl (fun standing s => s.1.leaves standing s.2) []

theorem standing_concat (steps : List (TokenStep κ)) (s : TokenStep κ) :
    standing (steps ++ [s]) = s.leaves (standing steps) steps.length := by
  simp [standing, List.zipIdx_append]

theorem standing_sublist (steps : List (TokenStep κ)) :
    (standing steps).Sublist (registrations 0 steps) := by
  induction steps using List.reverseRecOn with
  | nil => exact .slnil
  | append_singleton steps s ih =>
    rw [standing_concat, registrations_concat, Nat.zero_add]
    cases s with
    | add thread c => exact ih.append (.refl _)
    | remove c =>
      rw [show (TokenStep.remove c).registration? steps.length = none from rfl, Option.toList_none,
        List.append_nil]
      exact List.eraseP_sublist.trans ih
    | cancel thread => simpa [TokenStep.leaves, TokenStep.registration?] using ih
    | fire thread => simpa [TokenStep.leaves, TokenStep.registration?] using ih

theorem nodup_standing (steps : List (TokenStep κ)) : (standing steps).Nodup :=
  (nodup_registrations 0 steps).sublist (standing_sublist steps)

/-- A registration goes when its callback is removed while no older one of that callback stands. -/
def TakenOut (steps : List (TokenStep κ)) (r : Registration κ) : Prop :=
  ∃ earlier later, steps = earlier ++ .remove r.callback :: later ∧
    (standing earlier).find? (fun q => q.callback = r.callback) = some r

theorem takenOut_concat {steps : List (TokenStep κ)} {s : TokenStep κ} {r : Registration κ} :
    TakenOut (steps ++ [s]) r ↔ TakenOut steps r ∨ s = .remove r.callback ∧
      (standing steps).find? (fun q => q.callback = r.callback) = some r := by
  constructor
  · rintro ⟨earlier, later, heq, hfind⟩
    induction later using List.reverseRecOn with
    | nil =>
      obtain ⟨rfl, hs⟩ := List.append_inj' heq rfl
      exact .inr ⟨(List.cons.inj hs).1, hfind⟩
    | append_singleton later t _ =>
      rw [← List.cons_append, ← List.append_assoc] at heq
      obtain ⟨rfl, -⟩ := List.append_inj' heq rfl
      exact .inl ⟨earlier, later, rfl, hfind⟩
  · rintro (⟨earlier, later, rfl, hfind⟩ | ⟨rfl, hfind⟩)
    · exact ⟨earlier, later ++ [s], by simp, hfind⟩
    · exact ⟨steps, [], rfl, hfind⟩

theorem mem_eraseP_iff {α : Type} {p : α → Bool} {l : List α} (hl : l.Nodup) {a : α} :
    a ∈ l.eraseP p ↔ a ∈ l ∧ l.find? p ≠ some a := by
  induction l with
  | nil => simp
  | cons b l ih =>
    obtain ⟨hb, hl⟩ := List.nodup_cons.mp hl
    by_cases hp : p b = true
    · rw [List.eraseP_cons_of_pos hp, List.find?_cons_of_pos hp]
      grind
    · rw [List.eraseP_cons_of_neg hp, List.find?_cons_of_neg hp, List.mem_cons, ih hl]
      grind [List.mem_of_find?_eq_some]

theorem mem_standing_iff {steps : List (TokenStep κ)} {r : Registration κ} :
    r ∈ standing steps ↔ r ∈ registrations 0 steps ∧ ¬TakenOut steps r := by
  induction steps using List.reverseRecOn with
  | nil => simp [standing, registrations]
  | append_singleton steps s ih =>
    rw [standing_concat, registrations_concat, takenOut_concat, Nat.zero_add]
    cases s with
    | add thread c =>
      -- The new registration was nowhere before, so no step before can have taken it out.
      have hnew : ¬TakenOut steps ⟨steps.length, thread, c⟩ := by
        rintro ⟨earlier, later, heq, hfind⟩
        have hmem := (standing_sublist earlier).subset (List.mem_of_find?_eq_some hfind)
        have hplace := (place_of_mem_registrations hmem).2
        have hlength := congrArg List.length heq
        rw [List.length_append, List.length_cons] at hlength
        dsimp only at hplace
        omega
      simp only [TokenStep.leaves, TokenStep.registration?, List.mem_append, ih]
      grind
    | remove c =>
      simp only [TokenStep.leaves, TokenStep.registration?, mem_eraseP_iff (nodup_standing steps), ih]
      grind
    | cancel thread => simp [TokenStep.leaves, TokenStep.registration?, ih]
    | fire thread => simp [TokenStep.leaves, TokenStep.registration?, ih]

namespace Token

/-- What a step leaves of a token. -/
def after (t : Token κ) : TokenStep κ → Token κ
  | .add _ c => (t.add c).1
  | .remove c => t.remove c
  | .cancel _ => t.cancel.1
  | .fire _ => t

/-- What a step hands a thread to run. -/
def hands (t : Token κ) (thread : ℕ) : TokenStep κ → List κ
  | .add u c => if u = thread then (t.add c).2 else []
  | .cancel u => if u = thread then t.cancel.2 else []
  | _ => []

def handsAll (thread : ℕ) : Token κ → List (TokenStep κ) → List κ
  | _, [] => []
  | t, s :: rest => t.hands thread s ++ handsAll thread (t.after s) rest

theorem handsAll_append (thread : ℕ) (t : Token κ) (steps more : List (TokenStep κ)) :
    t.handsAll thread (steps ++ more) =
      t.handsAll thread steps ++ (steps.foldl after t).handsAll thread more := by
  induction steps generalizing t with
  | nil => rfl
  | cons s rest ih => rw [List.cons_append, handsAll, handsAll, ih, List.append_assoc, List.foldl_cons]

theorem after_live {t : Token κ} (ht : t.cancelled = false) {s : TokenStep κ}
    (hs : s.isCancel = false) (thread : ℕ) :
    (t.after s).cancelled = false ∧ t.hands thread s = [] := by
  cases s with
  | add u c => simp [after, hands, add, ht]
  | remove c => exact ⟨ht, rfl⟩
  | cancel u => cases hs
  | fire u => exact ⟨ht, rfl⟩

theorem foldl_after_live {t : Token κ} (ht : t.cancelled = false) {steps : List (TokenStep κ)}
    (hsteps : ∀ s ∈ steps, s.isCancel = false) (thread : ℕ) :
    (steps.foldl after t).cancelled = false ∧ t.handsAll thread steps = [] := by
  induction steps generalizing t with
  | nil => exact ⟨ht, rfl⟩
  | cons s rest ih =>
    obtain ⟨hlive, hnone⟩ := after_live ht (hsteps s (by simp)) thread
    obtain ⟨hrest, hnone'⟩ := ih hlive fun s hs => hsteps s (List.mem_cons_of_mem _ hs)
    exact ⟨hrest, by rw [handsAll, hnone, hnone', List.append_nil]⟩

theorem after_cancelled {t : Token κ} (ht : t.cancelled = true) (s : TokenStep κ) :
    (t.after s).cancelled = true ∧ (t.after s).callbacks.Sublist t.callbacks := by
  cases s with
  | add u c => simp [after, add, ht]
  | remove c => exact ⟨ht, List.erase_sublist⟩
  | cancel u => simp [after, cancel, ht]
  | fire u => exact ⟨ht, .refl _⟩

theorem foldl_after_cancelled {t : Token κ} (ht : t.cancelled = true) (steps : List (TokenStep κ)) :
    (steps.foldl after t).cancelled = true ∧
      (steps.foldl after t).callbacks.Sublist t.callbacks := by
  induction steps generalizing t with
  | nil => exact ⟨ht, .refl _⟩
  | cons s rest ih =>
    obtain ⟨hcancelled, hsublist⟩ := after_cancelled ht s
    obtain ⟨hrest, hsublist'⟩ := ih hcancelled
    exact ⟨hrest, hsublist'.trans hsublist⟩

/-- A cancelled token hands a thread what that thread registers, and nothing else. -/
theorem handsAll_cancelled {t : Token κ} (ht : t.cancelled = true) (thread place : ℕ)
    (steps : List (TokenStep κ)) : t.handsAll thread steps =
      ((registrations place steps).filter fun r => r.thread = thread).map
        Registration.callback := by
  induction steps generalizing t place with
  | nil => rfl
  | cons s rest ih =>
    rw [handsAll, registrations, List.filter_append, List.map_append,
      ih (after_cancelled ht s).1 (place + 1)]
    congr 1
    cases s with
    | add u c => by_cases hu : u = thread <;> simp [hands, add, ht, hu, TokenStep.registration?]
    | remove c => rfl
    | cancel u => simp [hands, cancel, ht, TokenStep.registration?]
    | fire u => rfl

/-- As long as nobody cancels it, a token stores the registrations that stand. -/
theorem callbacks_standing {steps : List (TokenStep κ)} (h : ∀ s ∈ steps, s.isCancel = false) :
    (steps.foldl after {}).callbacks = (standing steps).map Registration.callback := by
  induction steps using List.reverseRecOn with
  | nil => rfl
  | append_singleton steps s ih =>
    have hsteps : ∀ s ∈ steps, s.isCancel = false := fun s hs => h s (List.mem_append_left _ hs)
    have hlive : (steps.foldl after ({} : Token κ)).cancelled = false :=
      (foldl_after_live rfl hsteps 0).1
    rw [List.foldl_append, List.foldl_cons, List.foldl_nil, standing_concat]
    cases s with
    | add thread c => simp [after, add, hlive, TokenStep.leaves, ih hsteps]
    | remove c =>
      rw [TokenStep.leaves, after, remove, ih hsteps, List.erase_eq_eraseP', List.eraseP_map]
      rfl
    | cancel thread => exact absurd (h (.cancel thread) (by simp)) (by simp [TokenStep.isCancel])
    | fire thread => exact ih hsteps

end Token

namespace TokenThreads

def firing? (s : TokenThreads κ) : TokenStep κ → Option (ℕ × κ)
  | .fire thread => (s.queues thread).head?.map fun c => (thread, c)
  | _ => none

/-- Who runs which callback in the course of some steps. -/
def firings : TokenThreads κ → List (TokenStep κ) → List (ℕ × κ)
  | _, [] => []
  | s, t :: rest => (s.firing? t).toList ++ (s.step? t).elim [] fun s' => s'.firings rest

/-- What one step does to the token, to a thread's queue and to what has run. -/
theorem step?_spec {s s' : TokenThreads κ} {t : TokenStep κ} (h : s.step? t = some s') :
    s'.token = s.token.after t ∧ s'.fired = s.fired ++ (s.firing? t).toList.map Prod.snd ∧
      ∀ thread, ranBy thread (s.firing? t).toList ++ s'.queues thread =
        s.queues thread ++ s.token.hands thread t := by
  cases t with
  | add u c =>
    obtain rfl := Option.some.inj h
    exact ⟨rfl, by simp [firing?], fun thread => queues_enqueue s u _ thread⟩
  | remove c =>
    obtain rfl := Option.some.inj h
    exact ⟨rfl, by simp [firing?], fun thread => by simp [firing?, ranBy, Token.hands]⟩
  | cancel u =>
    obtain rfl := Option.some.inj h
    exact ⟨rfl, by simp [firing?], fun thread => queues_enqueue s u _ thread⟩
  | fire u =>
    unfold step? at h
    dsimp only at h
    split at h
    case h_1 => cases h
    case h_2 c rest hqueue =>
      obtain rfl := Option.some.inj h
      refine ⟨rfl, by simp [firing?, hqueue], fun thread => ?_⟩
      by_cases hu : thread = u
      · simp [firing?, hqueue, ranBy, Token.hands, hu]
      · simp [firing?, hqueue, ranBy, Token.hands, hu, Ne.symm hu]

theorem step?_keeps_fired {s s' : TokenThreads κ} {t : TokenStep κ} (h : s.step? t = some s')
    (hfire : ∀ thread, t ≠ .fire thread) : s'.token = s.token.after t ∧ s'.fired = s.fired ∧
      ∀ thread, s'.queues thread = s.queues thread ++ s.token.hands thread t := by
  have hnone : s.firing? t = none := by
    cases t with
    | fire thread => exact absurd rfl (hfire thread)
    | _ => rfl
  obtain ⟨htoken, hfired, hqueues⟩ := step?_spec h
  simp only [hnone, Option.toList_none, List.map_nil, List.append_nil] at hfired
  exact ⟨htoken, hfired, fun thread => by simpa [hnone, ranBy] using hqueues thread⟩

theorem step?_fire_spec {s s' : TokenThreads κ} {thread : ℕ} {c : κ} {rest : List κ}
    (hqueue : s.queues thread = c :: rest) (h : s.step? (.fire thread) = some s') :
    s' = { s with
      queues := fun u => if u = thread then rest else s.queues u
      fired := s.fired ++ [c] } := by
  simp only [step?, hqueue] at h
  exact (Option.some.inj h).symm

/-- What a thread has run, and has still to run, is what it had to run and what it was handed. -/
theorem run?_spec {s s' : TokenThreads κ} {steps : List (TokenStep κ)}
    (h : s.run? steps = some s') :
    s'.token = steps.foldl Token.after s.token ∧
      s'.fired = s.fired ++ (s.firings steps).map Prod.snd ∧
        ∀ thread, ranBy thread (s.firings steps) ++ s'.queues thread =
          s.queues thread ++ s.token.handsAll thread steps := by
  induction steps generalizing s with
  | nil =>
    obtain rfl := Option.some.inj h
    simp [firings, ranBy, Token.handsAll]
  | cons t rest ih =>
    obtain ⟨next, ht, hrest⟩ := Option.bind_eq_some_iff.mp h
    obtain ⟨htoken, hfired, hqueue⟩ := step?_spec ht
    obtain ⟨htoken', hfired', hqueue'⟩ := ih hrest
    rw [firings, ht, Option.elim_some]
    refine ⟨?_, ?_, fun thread => ?_⟩
    · rw [htoken', htoken, List.foldl_cons]
    · rw [hfired', hfired, List.map_append, List.append_assoc]
    · rw [ranBy_append, List.append_assoc, hqueue', ← List.append_assoc, hqueue, htoken,
        Token.handsAll, List.append_assoc]

/-- A thread that is left to itself runs all it has to run. -/
theorem run?_fires (s : TokenThreads κ) (thread : ℕ) :
    ∃ s', s.run? (List.replicate (s.queues thread).length (.fire thread)) = some s' ∧
      s'.queues thread = [] := by
  generalize hqueue : s.queues thread = queue
  induction queue generalizing s with
  | nil => exact ⟨s, rfl, hqueue⟩
  | cons c rest ih =>
    obtain ⟨s', hrun, hnone⟩ := ih { s with
        queues := fun t => if t = thread then rest else s.queues t
        fired := s.fired ++ [c] } (if_pos rfl)
    refine ⟨s', ?_, hnone⟩
    rw [List.length_cons, List.replicate_succ]
    exact Option.bind_eq_some_iff.mpr ⟨_, by simp only [step?, hqueue], hrun⟩

theorem step?_cancel_again {s : TokenThreads κ} (h : s.token.cancelled = true) (thread : ℕ) :
    s.step? (.cancel thread) = some s := by
  have hqueues : s.enqueue thread [] = s.queues := by
    funext u
    rw [queues_enqueue, ite_self, List.append_nil]
  simp only [step?, Token.cancel, h, if_true, hqueues]

end TokenThreads

/-- What a thread's calls have to run where `canceller` cancels a new token after some steps: the
canceller what stood, and everybody what he registered too late. -/
def duties (before : List (TokenStep κ)) (canceller : ℕ) (after : List (TokenStep κ))
    (thread : ℕ) : List (Registration κ) :=
  (if thread = canceller then standing before else []) ++
    (registrations (before.length + 1) after).filter fun r => r.thread = thread

section Duties

variable {before after : List (TokenStep κ)} {canceller thread : ℕ} {r : Registration κ}

theorem mem_duties : r ∈ duties before canceller after thread ↔
    thread = canceller ∧ r ∈ standing before ∨
      r ∈ registrations (before.length + 1) after ∧ r.thread = thread := by
  by_cases h : thread = canceller <;> simp [duties, h]

theorem nodup_duties : (duties before canceller after thread).Nodup := by
  refine List.nodup_append.mpr ⟨?_, (nodup_registrations _ after).filter _, ?_⟩
  · split_ifs
    · exact nodup_standing before
    · exact List.nodup_nil
  · rintro r hstood _ hlate rfl
    split_ifs at hstood with hthread
    · exact not_late_of_early ((standing_sublist before).subset hstood)
        (List.mem_of_mem_filter hlate)
    · exact absurd hstood List.not_mem_nil

theorem count_duties {p : Prop} [Decidable p] (h : r ∈ duties before canceller after thread ↔ p) :
    (duties before canceller after thread).count r = if p then 1 else 0 := by
  rw [nodup_duties.count]
  exact if_congr h rfl rfl

theorem handsAll_duties (hbefore : ∀ t ∈ before, t.isCancel = false) :
    ({} : Token κ).handsAll thread (before ++ .cancel canceller :: after) =
      (duties before canceller after thread).map Registration.callback := by
  obtain ⟨hlive, hnone⟩ := Token.foldl_after_live (t := ({} : Token κ)) rfl hbefore thread
  have hcancelled : ((before.foldl Token.after {}).after (.cancel canceller)).cancelled = true := by
    simp [Token.after, Token.cancel, hlive]
  rw [Token.handsAll_append, hnone, List.nil_append, Token.handsAll,
    Token.handsAll_cancelled hcancelled thread (before.length + 1), duties, List.map_append]
  congr 1
  by_cases h : thread = canceller
  · simp [Token.hands, Token.cancel, hlive, h, Token.callbacks_standing hbefore]
  · simp [Token.hands, h, Ne.symm h]

end Duties

/-- A token cancelled after some steps has every registration run just once, and by the right
thread, unless it was taken out before. -/
structure RunsRegistrations (before : List (TokenStep κ)) (canceller : ℕ)
    (after : List (TokenStep κ)) (s : TokenThreads κ) : Prop where
  fired : s.fired =
    (({} : TokenThreads κ).firings (before ++ .cancel canceller :: after)).map Prod.snd
  /-- What a thread has run and has still to run are its duties, each once and in their order. -/
  performed : ∀ thread,
    TokenThreads.ranBy thread
        (({} : TokenThreads κ).firings (before ++ .cancel canceller :: after)) ++
      s.queues thread = (duties before canceller after thread).map Registration.callback
  stood : ∀ r ∈ registrations 0 before, ¬TakenOut before r → ∀ thread,
    (duties before canceller after thread).count r = if thread = canceller then 1 else 0
  takenOut : ∀ r ∈ registrations 0 before, TakenOut before r → ∀ thread,
    r ∉ duties before canceller after thread
  late : ∀ r ∈ registrations (before.length + 1) after, ∀ thread,
    (duties before canceller after thread).count r = if thread = r.thread then 1 else 0
  /-- Nothing is stored any more. -/
  stored : s.token.callbacks.Sublist ((standing before).map Registration.callback)
  again : ∀ thread, s.step? (.cancel thread) = some s
  finishes : ∀ thread, ∃ s',
    s.run? (List.replicate (s.queues thread).length (.fire thread)) = some s' ∧
      s'.queues thread = []

/-- Whatever the order of the steps: nothing runs before the token is cancelled, and from then on
each registration runs as often as it should. -/
theorem runs_each_registration_once {before after : List (TokenStep κ)} {canceller : ℕ}
    {s : TokenThreads κ} (hbefore : ∀ t ∈ before, t.isCancel = false)
    (hrun : ({} : TokenThreads κ).run? (before ++ .cancel canceller :: after) = some s) :
    ({} : TokenThreads κ).firings before = [] ∧ RunsRegistrations before canceller after s := by
  obtain ⟨htoken, hfired, hqueue⟩ := TokenThreads.run?_spec hrun
  obtain ⟨c, hc, -⟩ := Option.bind_eq_some_iff.mp ((List.foldlM_append ..).symm.trans hrun)
  have hlive := (Token.foldl_after_live (t := ({} : Token κ)) rfl hbefore 0).1
  have hcancelled : ((before.foldl Token.after {}).after (.cancel canceller)).cancelled = true := by
    simp [Token.after, Token.cancel, hlive]
  obtain ⟨hstill, hsublist⟩ := Token.foldl_after_cancelled hcancelled after
  rw [List.foldl_append, List.foldl_cons] at htoken
  refine ⟨TokenThreads.eq_nil_of_ranBy fun thread => ?_, ?_⟩
  · have hnone := (TokenThreads.run?_spec hc).2.2 thread
    rw [(Token.foldl_after_live rfl hbefore thread).2] at hnone
    exact (List.append_eq_nil_iff.mp hnone).1
  exact {
    fired := hfired
    performed := fun thread => (hqueue thread).trans (handsAll_duties hbefore)
    stood := fun r hr hstands thread => count_duties <| by
      simp [mem_duties, mem_standing_iff, hr, hstands, not_late_of_early hr]
    takenOut := fun r hr hout thread => by
      simp [mem_duties, mem_standing_iff, hout, not_late_of_early hr]
    late := fun r hr thread => count_duties <| by
      have hearly : r ∉ standing before := fun hstood =>
        not_late_of_early ((standing_sublist before).subset hstood) hr
      simp [mem_duties, hearly, hr, eq_comm]
    stored := by
      rw [htoken, ← Token.callbacks_standing hbefore]
      simpa [Token.after, Token.cancel, hlive] using hsublist
    again := TokenThreads.step?_cancel_again (htoken ▸ hstill)
    finishes := s.run?_fires }

/-- Of two registrations of one callback the older is taken out. The token is cancelled twice, and one
more callback comes too late. -/
theorem runs_each_registration_once_twice : ∃ s : TokenThreads String,
    (∀ t ∈ ([.add 0 "x", .add 1 "x", .remove "x"] : List (TokenStep String)), t.isCancel = false) ∧
      ({} : TokenThreads String).run? ([.add 0 "x", .add 1 "x", .remove "x"] ++
        .cancel 2 :: [.add 3 "z", .fire 2, .cancel 4, .fire 3]) = some s ∧
      s.fired = ["x", "z"] ∧
      RunsRegistrations [.add 0 "x", .add 1 "x", .remove "x"] 2
        [.add 3 "z", .fire 2, .cancel 4, .fire 3] s := by
  have hlive : ∀ t ∈ ([.add 0 "x", .add 1 "x", .remove "x"] : List (TokenStep String)),
      t.isCancel = false := by decide
  have hrun : (({} : TokenThreads String).run? ([.add 0 "x", .add 1 "x", .remove "x"] ++
      .cancel 2 :: [.add 3 "z", .fire 2, .cancel 4, .fire 3])).map TokenThreads.fired =
        some ["x", "z"] := by
    decide +kernel
  obtain ⟨s, hs, hfired⟩ := Option.map_eq_some_iff.mp hrun
  exact ⟨s, hlive, hs, hfired, (runs_each_registration_once hlive hs).2⟩

end CohortAnalytics
