import CohortAnalytics.Proofs.Cache.Steps
import CohortAnalytics.Proofs.Entries

/-!
The tables of flights and callers over every order of steps: a flight stays in the table exactly as
long as it is unsettled and somebody waits for it, and the count of those who wait is right.
-/

namespace CohortAnalytics

theorem countP_set_add {α : Type} {p : α → Bool} {l : List α} {k : ℕ} {old : α}
    (h : l[k]? = some old) (new : α) :
    (l.set k new).countP p + (if p old then 1 else 0) = l.countP p + (if p new then 1 else 0) := by
  obtain ⟨hk, rfl⟩ := List.getElem?_eq_some_iff.mp h
  have := List.boole_getElem_le_countP (p := p) hk
  rw [List.countP_set hk]
  omega

namespace FlightStage

variable {τ V : Type}

/-- Neither settled in the tables nor done. -/
def isLive : FlightStage τ V → Bool
  | .settled _ => false
  | .done _ => false
  | _ => true

def isRegistered : FlightStage τ V → Bool
  | .registered => true
  | _ => false

/-- The computation runs or has yet to run. -/
def isPending : FlightStage τ V → Bool
  | .registered => true
  | .queued => true
  | .running => true
  | _ => false

/-- How many steps of its owner or of a worker a flight is from its end, at most. -/
def remaining : FlightStage τ V → ℕ
  | .registered => 6
  | .queued => 5
  | .running => 4
  | .returned _ => 3
  | .stamped _ _ => 2
  | .failed _ => 2
  | .settled _ => 1
  | .done _ => 0

end FlightStage

namespace Caller

variable {V : Type}

def flight? : Caller V → Option ℕ
  | .submitting i => some i
  | .refused i => some i
  | .waiting i => some i
  | .leaving i => some i
  | .cancelling i => some i
  | .answered _ => none

/-- Counted among those who wait for the flight. -/
def attachedTo (i : ℕ) : Caller V → Bool
  | .submitting j => j == i
  | .refused j => j == i
  | .waiting j => j == i
  | .leaving j => j == i
  | _ => false

def owns (i : ℕ) : Caller V → Bool
  | .submitting j => j == i
  | _ => false

theorem flight?_of_attachedTo {i : ℕ} {a : Caller V} (h : a.attachedTo i) : a.flight? = some i := by
  cases a <;> simp_all [attachedTo, flight?]

theorem flight?_of_owns {i : ℕ} {a : Caller V} (h : a.owns i) : a.flight? = some i := by
  cases a <;> simp_all [owns, flight?]

end Caller

namespace Cache

variable {τ V : Type}

def attached (i : ℕ) (c : Cache τ V) : ℕ := c.callers.countP (·.attachedTo i)

def owners (i : ℕ) (c : Cache τ V) : ℕ := c.callers.countP (·.owns i)

structure FlightSound (c : Cache τ V) (i : ℕ) (f : Flight τ V) : Prop where
  counted : f.stage.isDone = false → f.waiters = c.attached i
  tabled : c.inFlight.find? f.key = some i ↔ f.stage.isLive ∧ 0 < c.attached i
  owned : c.owners i = if f.stage.isRegistered then 1 else 0
  quiet : f.cancelled → c.attached i = 0

/-- What holds of the cache after every step. -/
structure Sound (c : Cache τ V) : Prop where
  known : ∀ key i, c.inFlight.find? key = some i → ∃ f, c.flights[i]? = some f ∧ f.key = key
  present : ∀ a ∈ c.callers, ∀ i ∈ a.flight?, i < c.flights.length
  flight : ∀ i f, c.flights[i]? = some f → c.FlightSound i f
  abandoned : ∀ i, .cancelling i ∈ c.callers → c.attached i = 0

theorem Sound.congr {c d : Cache τ V} (h : c.Sound) (htable : d.inFlight = c.inFlight)
    (hflights : d.flights = c.flights) (hcallers : d.callers = c.callers) : d.Sound := by
  have hattached (i : ℕ) : d.attached i = c.attached i := by rw [attached, attached, hcallers]
  have howners (i : ℕ) : d.owners i = c.owners i := by rw [owners, owners, hcallers]
  refine ⟨by rw [htable, hflights]; exact h.known, by rw [hcallers, hflights]; exact h.present,
    fun i f hf => ?_, fun i hi => ?_⟩
  · obtain ⟨hcounted, htabled, howned, hquiet⟩ := h.flight i f (hflights ▸ hf)
    exact ⟨by rwa [hattached], by rwa [htable, hattached], by rwa [howners], by rwa [hattached]⟩
  · rw [hattached]
    exact h.abandoned i (hcallers ▸ hi)

/-- A step about one flight leaves all others as they are. -/
theorem Sound.of_frame {c d : Cache τ V} (h : c.Sound) {i : ℕ} {f : Flight τ V}
    (hf : d.flights[i]? = some f) (hlength : c.flights.length ≤ d.flights.length)
    (hothers : ∀ j ≠ i, d.flights[j]? = c.flights[j]? ∧ d.attached j = c.attached j ∧
      d.owners j = c.owners j)
    (htable : ∀ key, ∀ j ≠ i, d.inFlight.find? key = some j ↔ c.inFlight.find? key = some j)
    (hkey : ∀ key, d.inFlight.find? key = some i → f.key = key)
    (hcallers : ∀ a ∈ d.callers, a ∈ c.callers ∨ ∀ j ∈ a.flight?, j = i)
    (hsound : d.FlightSound i f) (habandoned : .cancelling i ∈ d.callers → d.attached i = 0) :
    d.Sound := by
  have hi : i < d.flights.length := (List.getElem?_eq_some_iff.mp hf).1
  refine ⟨fun key j hj => ?_, fun a ha j hj => ?_, fun j g hg => ?_, fun j hj => ?_⟩
  · by_cases hij : j = i
    · subst hij
      exact ⟨f, hf, hkey key hj⟩
    · rw [(hothers j hij).1]
      exact h.known key j ((htable key j hij).mp hj)
  · rcases hcallers a ha with hold | hnew
    · exact Nat.lt_of_lt_of_le (h.present a hold j hj) hlength
    · exact hnew j hj ▸ hi
  · by_cases hij : j = i
    · subst hij
      obtain rfl := Option.some.inj (hf.symm.trans hg)
      exact hsound
    · obtain ⟨hflight, hattached, howners⟩ := hothers j hij
      obtain ⟨hcounted, htabled, howned, hquiet⟩ := h.flight j g (hflight ▸ hg)
      exact ⟨by rwa [hattached], by rwa [htable _ j hij, hattached], by rwa [howners],
        by rwa [hattached]⟩
  · by_cases hij : j = i
    · subst hij
      exact habandoned hj
    · rw [(hothers j hij).2.1]
      rcases hcallers _ hj with hold | hnew
      · exact h.abandoned j hold
      · exact absurd (hnew j rfl) hij

theorem not_attachedTo {a : Caller V} {i j : ℕ} (h : ∀ n ∈ a.flight?, n = i) (hj : j ≠ i) :
    a.attachedTo j = false := by
  by_contra hon
  exact hj (h j (Caller.flight?_of_attachedTo (by simpa using hon)))

theorem not_owns {a : Caller V} {i j : ℕ} (h : ∀ n ∈ a.flight?, n = i) (hj : j ≠ i) :
    a.owns j = false := by
  by_contra hon
  exact hj (h j (Caller.flight?_of_owns (by simpa using hon)))

theorem counts_set {c d : Cache τ V} {k : ℕ} {a b : Caller V} (ha : c.callers[k]? = some a)
    (hset : d.callers = c.callers.set k b) (i : ℕ) :
    d.attached i + (if a.attachedTo i then 1 else 0) =
        c.attached i + (if b.attachedTo i then 1 else 0) ∧
      d.owners i + (if a.owns i then 1 else 0) = c.owners i + (if b.owns i then 1 else 0) := by
  rw [attached, owners, hset]
  exact ⟨countP_set_add ha b, countP_set_add ha b⟩

theorem Sound.key_eq {c : Cache τ V} (h : c.Sound) {i : ℕ} {f : Flight τ V}
    (hf : c.flights[i]? = some f) {key : String} (hkey : c.inFlight.find? key = some i) :
    f.key = key := by
  obtain ⟨g, hg, rfl⟩ := h.known key i hkey
  rw [Option.some.inj (hf.symm.trans hg)]

theorem Sound.of_flight {c d : Cache τ V} (h : c.Sound) {i : ℕ} {f : Flight τ V}
    {g : Flight τ V → Flight τ V} (hf : c.flights[i]? = some f)
    (hflights : d.flights = c.flights.modify i g) (hcallers : d.callers = c.callers)
    (hkey : (g f).key = f.key)
    (htable : ∀ key, ∀ j ≠ i, d.inFlight.find? key = some j ↔ c.inFlight.find? key = some j)
    (hmine : ∀ key, d.inFlight.find? key = some i → c.inFlight.find? key = some i)
    (hsound : d.FlightSound i (g f)) : d.Sound := by
  have hattached (j : ℕ) : d.attached j = c.attached j := by rw [attached, attached, hcallers]
  refine h.of_frame (by simp [hflights, hf]) (by simp [hflights]) (fun j hj => ⟨?_, hattached j, ?_⟩)
    htable (fun key hfind => hkey.trans (h.key_eq hf (hmine key hfind)))
    (fun x hx => .inl (hcallers ▸ hx)) hsound fun hx => ?_
  · simp [hflights, hj.symm]
  · rw [owners, owners, hcallers]
  · rw [hattached]
    exact h.abandoned i (hcallers ▸ hx)

theorem Sound.of_caller {c d : Cache τ V} (h : c.Sound) {i k : ℕ} {f : Flight τ V} {a b : Caller V}
    {g : Flight τ V → Flight τ V} (hf : c.flights[i]? = some f)
    (hflights : d.flights = c.flights.modify i g) (ha : c.callers[k]? = some a)
    (hcallers : d.callers = c.callers.set k b) (hold : ∀ n ∈ a.flight?, n = i)
    (hnew : ∀ n ∈ b.flight?, n = i) (hkey : (g f).key = f.key)
    (htable : ∀ key, ∀ j ≠ i, d.inFlight.find? key = some j ↔ c.inFlight.find? key = some j)
    (hmine : ∀ key, d.inFlight.find? key = some i → c.inFlight.find? key = some i)
    (hsound : d.FlightSound i (g f)) (hless : d.attached i ≤ c.attached i)
    (habandoned : b = .cancelling i → d.attached i = 0) : d.Sound := by
  have hmem {x : Caller V} (hx : x ∈ d.callers) : x ∈ c.callers ∨ x = b :=
    List.mem_or_eq_of_mem_set (hcallers ▸ hx)
  refine h.of_frame (by simp [hflights, hf]) (by simp [hflights]) (fun j hj => ⟨?_, ?_⟩)
    htable (fun key hfind => hkey.trans (h.key_eq hf (hmine key hfind))) (fun x hx => ?_) hsound
    fun hx => ?_
  · simp [hflights, hj.symm]
  · have hcounts := counts_set ha hcallers j
    rw [not_attachedTo hold hj, not_attachedTo hnew hj, not_owns hold hj, not_owns hnew hj] at hcounts
    exact hcounts
  · rcases hmem hx with hx | rfl
    · exact .inl hx
    · exact .inr hnew
  · rcases hmem hx with hx | hx
    · have := h.abandoned i hx
      omega
    · exact habandoned hx.symm

theorem find?_dropFlight (c : Cache τ V) (key : String) (i : ℕ) (other : String) :
    (c.dropFlight key i).inFlight.find? other =
      if other = key ∧ c.inFlight.find? key = some i then none else c.inFlight.find? other := by
  unfold dropFlight
  by_cases hfind : c.inFlight.find? key = some i
  · rw [if_pos hfind]
    by_cases hkey : other = key
    · rw [if_pos ⟨hkey, hfind⟩, hkey]
      exact Entries.find?_remove_self key _
    · rw [if_neg fun h => hkey h.1]
      exact Entries.find?_remove_of_ne hkey _
  · rw [if_neg hfind, if_neg fun h => hfind h.2]

theorem find?_dropFlight_eq_some {c : Cache τ V} {key : String} {i j : ℕ} {other : String} :
    (c.dropFlight key i).inFlight.find? other = some j ↔
      c.inFlight.find? other = some j ∧ ¬(other = key ∧ j = i) := by
  rw [find?_dropFlight]
  constructor
  · intro h
    split_ifs at h with hdrop
    refine ⟨h, ?_⟩
    rintro ⟨rfl, rfl⟩
    exact hdrop ⟨rfl, h⟩
  · rintro ⟨h, hne⟩
    rw [if_neg]
    · exact h
    · rintro ⟨rfl, hfind⟩
      exact hne ⟨rfl, Option.some.inj (h.symm.trans hfind)⟩

@[simp]
theorem dropFlight_flights (c : Cache τ V) (key : String) (i : ℕ) :
    (c.dropFlight key i).flights = c.flights := by
  unfold dropFlight
  split <;> rfl

@[simp]
theorem dropFlight_callers (c : Cache τ V) (key : String) (i : ℕ) :
    (c.dropFlight key i).callers = c.callers := by
  unfold dropFlight
  split <;> rfl

theorem isDone_of_isLive {stage : FlightStage τ V} (h : stage.isLive = true) :
    stage.isDone = false := by
  revert h
  cases stage <;> simp [FlightStage.isLive, FlightStage.isDone]

theorem isLive_of_isRegistered {stage : FlightStage τ V} (h : stage.isRegistered = true) :
    stage.isLive = true := by
  revert h
  cases stage <;> simp [FlightStage.isLive, FlightStage.isRegistered]

theorem isLive_of_isPending {stage : FlightStage τ V} (h : stage.isPending = true) :
    stage.isLive = true := by
  revert h
  cases stage <;> simp [FlightStage.isLive, FlightStage.isPending]

theorem Sound.advanced {c : Cache τ V} (h : c.Sound) {i : ℕ} {f : Flight τ V}
    (hf : c.flights[i]? = some f) {stage : FlightStage τ V} (hlive : stage.isLive = f.stage.isLive)
    (hdone : stage.isDone = false → f.stage.isDone = false)
    (hregistered : stage.isRegistered = f.stage.isRegistered) : (c.setStage i stage).Sound := by
  obtain ⟨hcounted, htabled, howned, hquiet⟩ := h.flight i f hf
  refine h.of_flight hf rfl rfl rfl (fun _ _ _ => Iff.rfl) (fun _ => id)
    ⟨fun hd => hcounted (hdone hd), ?_, ?_, hquiet⟩
  · rw [hlive]
    exact htabled
  · rw [hregistered]
    exact howned

theorem Sound.moved {c : Cache τ V} (h : c.Sound) {k i : ℕ} {a b : Caller V} {f : Flight τ V}
    (ha : c.callers[k]? = some a) (hf : c.flights[i]? = some f) (hold : ∀ n ∈ a.flight?, n = i)
    (hnew : ∀ n ∈ b.flight?, n = i) (howns : a.owns i = b.owns i)
    (hless : b.attachedTo i → a.attachedTo i)
    (hsame : f.stage.isLive = false ∧ f.stage.isDone = true ∨ b.attachedTo i = a.attachedTo i)
    (hcancel : b ≠ .cancelling i) : (c.setCaller k b).Sound := by
  obtain ⟨hcounted, htabled, howned, hquiet⟩ := h.flight i f hf
  obtain ⟨hattached, howners⟩ := counts_set (d := c.setCaller k b) ha rfl i
  rw [howns] at howners
  have hle : (c.setCaller k b).attached i ≤ c.attached i := by
    by_cases hb : b.attachedTo i
    · rw [hb, hless hb] at hattached
      omega
    · rw [if_neg hb] at hattached
      omega
  have heq (hs : b.attachedTo i = a.attachedTo i) : (c.setCaller k b).attached i = c.attached i := by
    rw [hs] at hattached
    omega
  refine h.of_caller hf (List.modify_id i c.flights).symm ha rfl hold hnew rfl
    (fun _ _ _ => Iff.rfl) (fun _ => id) ⟨fun hd => ?_, htabled.trans ?_, ?_, fun hc => ?_⟩ hle
    fun hb => absurd hb hcancel
  · rcases hsame with ⟨-, hdone⟩ | hsame
    · exact absurd hd (by simp [hdone])
    · exact (hcounted hd).trans (heq hsame).symm
  · rcases hsame with ⟨hlive, -⟩ | hsame
    · simp [hlive]
    · rw [heq hsame]
      rfl
  · exact (show (c.setCaller k b).owners i = c.owners i by omega).trans howned
  · have := hquiet hc
    omega

theorem Sound.registered_of_submitting {c : Cache τ V} (h : c.Sound) {k i : ℕ}
    (ha : c.callers[k]? = some (.submitting i)) :
    ∃ f, c.flights[i]? = some f ∧ f.stage = .registered := by
  have hi := h.present _ (List.mem_of_getElem? ha) i rfl
  obtain ⟨f, hf⟩ : ∃ f, c.flights[i]? = some f := ⟨_, List.getElem?_eq_getElem hi⟩
  have hpos : 0 < c.owners i :=
    List.countP_pos_iff.mpr ⟨_, List.mem_of_getElem? ha, by simp [Caller.owns]⟩
  rw [(h.flight i f hf).owned] at hpos
  refine ⟨f, hf, ?_⟩
  revert hpos
  cases f.stage <;> simp [FlightStage.isRegistered]

theorem Sound.submitted {c : Cache τ V} (h : c.Sound) {k i : ℕ}
    (ha : c.callers[k]? = some (.submitting i)) {stage : FlightStage τ V} {b : Caller V}
    (hlive : stage.isLive = true) (hregistered : stage.isRegistered = false)
    (hnew : ∀ n ∈ b.flight?, n = i) (hattached : b.attachedTo i = true) (howns : b.owns i = false)
    (hcancel : b ≠ .cancelling i) : ((c.setStage i stage).setCaller k b).Sound := by
  obtain ⟨f, hf, hstage⟩ := h.registered_of_submitting ha
  have hone : f.stage.isRegistered = true := by rw [hstage]; rfl
  obtain ⟨hcounted, htabled, howned, hquiet⟩ := h.flight i f hf
  obtain ⟨hcount, howner⟩ := counts_set (d := (c.setStage i stage).setCaller k b) ha rfl i
  rw [hattached, show (Caller.submitting i : Caller V).attachedTo i = true by
    simp [Caller.attachedTo]] at hcount
  rw [howns, show (Caller.submitting i : Caller V).owns i = true by simp [Caller.owns]] at howner
  have hsame := Nat.add_right_cancel hcount
  rw [if_pos hone] at howned
  refine h.of_caller (d := (c.setStage i stage).setCaller k b) hf rfl ha rfl (by rintro n ⟨⟩; rfl)
    hnew rfl (fun _ _ _ => Iff.rfl) (fun _ => id) ⟨fun _ => ?_, ?_, ?_, fun hc => ?_⟩
    (Nat.le_of_eq hsame) fun hb => absurd hb hcancel
  · exact (hcounted (isDone_of_isLive (isLive_of_isRegistered hone))).trans hsame.symm
  · rw [hsame, hlive]
    exact htabled.trans (by rw [isLive_of_isRegistered hone])
  · rw [hregistered]
    simp only [if_true, Bool.false_eq_true, if_false] at howner ⊢
    omega
  · exact hsame.trans (hquiet hc)

theorem Sound.settled {c : Cache τ V} (h : c.Sound) {i : ℕ} {f : Flight τ V}
    (hf : c.flights[i]? = some f) (hdone : f.stage.isDone = false)
    (hregistered : f.stage.isRegistered = false) (r : Except Failure V) :
    ((c.dropFlight f.key i).setStage i (.settled r)).Sound := by
  obtain ⟨hcounted, htabled, howned, hquiet⟩ := h.flight i f hf
  have htable {key : String} {j : ℕ} :
      ((c.dropFlight f.key i).setStage i (.settled r)).inFlight.find? key = some j ↔
        c.inFlight.find? key = some j ∧ ¬(key = f.key ∧ j = i) := find?_dropFlight_eq_some
  have hcallers : ((c.dropFlight f.key i).setStage i (.settled r)).callers = c.callers :=
    dropFlight_callers c f.key i
  refine h.of_flight (g := fun f => { f with stage := .settled r }) hf
    (congrArg (List.modify · i _) (dropFlight_flights c f.key i)) hcallers rfl (fun key j hj => ?_)
    (fun key hfind => (htable.mp hfind).1) ⟨fun _ => ?_, ?_, ?_, fun hc => ?_⟩
  · rw [htable]
    exact ⟨And.left, fun hfind => ⟨hfind, fun hand => hj hand.2⟩⟩
  · rw [attached, hcallers]
    exact hcounted hdone
  · rw [htable]
    simp [FlightStage.isLive]
  · rw [owners, hcallers, ← owners, howned, hregistered]
    rfl
  · rw [attached, hcallers]
    exact hquiet hc

theorem counts_leaving {c d : Cache τ V} {k i : ℕ} {b : Caller V}
    (ha : c.callers[k]? = some (.leaving i)) (hset : d.callers = c.callers.set k b)
    (hb : b.attachedTo i = false) (howns : b.owns i = false) :
    d.attached i + 1 = c.attached i ∧ d.owners i = c.owners i := by
  have hon : (Caller.leaving i : Caller V).attachedTo i = true := by simp [Caller.attachedTo]
  have hcounts := counts_set ha hset i
  rw [hon, hb, howns] at hcounts
  exact hcounts

/-- The last caller of an unfinished flight: nobody is left to count, and it goes off the table. -/
theorem Sound.deserted {c : Cache τ V} (h : c.Sound) {k i : ℕ} {f : Flight τ V}
    (ha : c.callers[k]? = some (.leaving i)) (hf : c.flights[i]? = some f)
    (hlast : f.waiters - 1 = 0) (hdone : f.stage.isDone = false) :
    (((c.modifyFlight i fun f' => { f' with waiters := f.waiters - 1 }).dropFlight f.key i).setCaller
      k (.cancelling i)).Sound := by
  obtain ⟨hcounted, htabled, howned, hquiet⟩ := h.flight i f hf
  generalize hc' : ((c.modifyFlight i fun f' =>
    { f' with waiters := f.waiters - 1 }).dropFlight f.key i).setCaller k (.cancelling i) = c'
  have hcallers : c'.callers = c.callers.set k (.cancelling i) := by
    subst hc'
    exact congrArg (List.set · k _) (dropFlight_callers _ f.key i)
  obtain ⟨hattached, howners⟩ := counts_leaving ha hcallers rfl rfl
  have htable {key : String} {j : ℕ} : c'.inFlight.find? key = some j ↔
      c.inFlight.find? key = some j ∧ ¬(key = f.key ∧ j = i) := by
    subst hc'
    exact find?_dropFlight_eq_some
  have hzero : c'.attached i = 0 := by
    have := hcounted hdone
    omega
  refine h.of_caller (g := fun f' => { f' with waiters := f.waiters - 1 }) hf ?_ ha hcallers
    (by rintro n ⟨⟩; rfl) (by rintro n ⟨⟩; rfl) rfl (fun key j hj => ?_)
    (fun key hfind => (htable.mp hfind).1) ⟨fun _ => ?_, ?_, howners.trans howned, fun _ => hzero⟩
    (by omega) fun _ => hzero
  · subst hc'
    exact dropFlight_flights _ f.key i
  · rw [htable]
    exact ⟨And.left, fun hfind => ⟨hfind, fun hand => hj hand.2⟩⟩
  · exact hlast.trans hzero.symm
  · rw [htable, hzero]
    simp

/-- Somebody still waits, or the flight is done: the table stays as it is. -/
theorem Sound.left {c : Cache τ V} (h : c.Sound) {k i : ℕ} {f : Flight τ V}
    (ha : c.callers[k]? = some (.leaving i)) (hf : c.flights[i]? = some f)
    (hlast : f.waiters - 1 = 0 → f.stage.isDone = true) (r : Except Failure V) :
    ((c.modifyFlight i fun f' => { f' with waiters := f.waiters - 1 }).setCaller k
      (.answered r)).Sound := by
  obtain ⟨hcounted, htabled, howned, hquiet⟩ := h.flight i f hf
  generalize hc' : (c.modifyFlight i fun f' => { f' with waiters := f.waiters - 1 }).setCaller k
    (.answered r) = c'
  have hcallers : c'.callers = c.callers.set k (.answered r) := by
    subst hc'
    rfl
  obtain ⟨hattached, howners⟩ := counts_leaving ha hcallers rfl rfl
  refine h.of_caller (g := fun f' => { f' with waiters := f.waiters - 1 }) hf ?_ ha hcallers
    (by rintro n ⟨⟩; rfl) (by rintro n ⟨⟩) rfl (fun key j _ => ?_) (fun key hfind => ?_)
    ⟨fun hd => ?_, ?_, howners.trans howned, fun hc => ?_⟩ (by omega) (by simp)
  · subst hc'
    rfl
  · subst hc'
    exact Iff.rfl
  · subst hc'
    exact hfind
  · have := hcounted hd
    dsimp only
    omega
  · have hfind : c'.inFlight.find? f.key = some i ↔ c.inFlight.find? f.key = some i := by
      subst hc'
      exact Iff.rfl
    refine hfind.trans (htabled.trans (and_congr_right fun hlive => ?_))
    have hd := isDone_of_isLive hlive
    have hcount := hcounted hd
    have hmore : f.waiters - 1 ≠ 0 := fun hz => absurd (hlast hz) (by simp [hd])
    constructor <;> intro <;> omega
  · have := hquiet hc
    omega

theorem Sound.cancelled {c : Cache τ V} (h : c.Sound) {k i : ℕ} {f : Flight τ V}
    (ha : c.callers[k]? = some (.cancelling i)) (hf : c.flights[i]? = some f)
    (r : Except Failure V) :
    ((c.modifyFlight i fun f => { f with cancelled := true }).setCaller k (.answered r)).Sound := by
  obtain ⟨hcounted, htabled, howned, hquiet⟩ := h.flight i f hf
  have hzero := h.abandoned i (List.mem_of_getElem? ha)
  generalize hc' : (c.modifyFlight i fun f =>
    { f with cancelled := true }).setCaller k (.answered r) = c'
  have hcallers : c'.callers = c.callers.set k (.answered r) := by
    subst hc'
    rfl
  obtain ⟨hattached, howners⟩ := counts_set ha hcallers i
  replace hattached : c'.attached i = c.attached i := hattached
  refine h.of_caller (g := fun f => { f with cancelled := true }) hf ?_ ha hcallers
    (by rintro n ⟨⟩; rfl) (by rintro n ⟨⟩) rfl (fun key j _ => ?_) (fun key hfind => ?_)
    ⟨fun hd => ?_, ?_, howners.trans howned, fun _ => hattached.trans hzero⟩
    (Nat.le_of_eq hattached) (by simp)
  · subst hc'
    rfl
  · subst hc'
    exact Iff.rfl
  · subst hc'
    exact hfind
  · exact (hcounted hd).trans hattached.symm
  · rw [hattached]
    subst hc'
    exact htabled

theorem Sound.addAnswer {c : Cache τ V} (h : c.Sound) (r : Except Failure V) :
    (c.addCaller (.answered r)).Sound := by
  have hcounts (j : ℕ) : (c.addCaller (.answered r)).attached j = c.attached j ∧
      (c.addCaller (.answered r)).owners j = c.owners j := by
    simp [addCaller, attached, owners, Caller.attachedTo, Caller.owns]
  have hmem {a : Caller V} (ha : a ∈ (c.addCaller (.answered r)).callers) :
      a ∈ c.callers ∨ a = .answered r := by
    simpa [addCaller] using ha
  refine ⟨h.known, fun a ha j hj => ?_, fun j g hg => ?_, fun j hj => ?_⟩
  · rcases hmem ha with ha | rfl
    · exact h.present a ha j hj
    · exact absurd hj (by simp [Caller.flight?])
  · obtain ⟨hcounted, htabled, howned, hquiet⟩ := h.flight j g hg
    obtain ⟨hattached, howners⟩ := hcounts j
    exact ⟨by rwa [hattached], by rwa [hattached], by rwa [howners], by rwa [hattached]⟩
  · rw [(hcounts j).1]
    rcases hmem hj with hj | hj
    · exact h.abandoned j hj
    · exact absurd hj (by simp)

theorem Sound.joined {c : Cache τ V} (h : c.Sound) {key : String} {i : ℕ}
    (hfind : c.inFlight.find? key = some i) : (c.join i).Sound := by
  obtain ⟨f, hf, rfl⟩ := h.known key i hfind
  obtain ⟨hcounted, htabled, howned, hquiet⟩ := h.flight i f hf
  obtain ⟨hlive, hpos⟩ := htabled.mp hfind
  have hcounts (j : ℕ) : (c.join i).attached j = c.attached j + (if i == j then 1 else 0) ∧
      (c.join i).owners j = c.owners j := by
    simp [join, addCaller, attached, owners, modifyFlight, Caller.attachedTo, Caller.owns]
  have hmem {a : Caller V} (ha : a ∈ (c.join i).callers) : a ∈ c.callers ∨ a = .waiting i := by
    simpa [join, addCaller, modifyFlight] using ha
  have hattached : (c.join i).attached i = c.attached i + 1 := by simp [(hcounts i).1]
  refine h.of_frame (d := c.join i) (f := { f with waiters := f.waiters + 1 })
    (by simp [join, addCaller, modifyFlight, hf]) (by simp [join, addCaller, modifyFlight])
    (fun j hj => ⟨by simp [join, addCaller, modifyFlight, hj.symm], ?_, (hcounts j).2⟩)
    (fun _ _ _ => Iff.rfl) (fun key hkey => h.key_eq hf hkey) (fun a ha => ?_)
    ⟨fun hd => ?_, ?_, (hcounts i).2.trans howned, fun hc => ?_⟩ fun ha => ?_
  · simp [(hcounts j).1, hj.symm]
  · rcases hmem ha with ha | rfl
    · exact .inl ha
    · exact .inr (by rintro n ⟨⟩; rfl)
  · rw [hattached, ← hcounted hd]
  · rw [hattached]
    exact ⟨fun _ => ⟨hlive, Nat.succ_pos _⟩, fun _ => hfind⟩
  · have := hquiet hc
    omega
  · rcases hmem ha with ha | ha
    · have := h.abandoned i ha
      omega
    · exact absurd ha (by simp)

theorem Sound.registered {c : Cache τ V} (h : c.Sound) {key : String} (ttl : Option τ)
    (hfind : c.inFlight.find? key = none) : (c.register key ttl).Sound := by
  have hnobody : ∀ a ∈ c.callers, ∀ n ∈ a.flight?, n ≠ c.flights.length := fun a ha n hn =>
    Nat.ne_of_lt (h.present a ha n hn)
  have hnone : c.attached c.flights.length = 0 ∧ c.owners c.flights.length = 0 := by
    rw [attached, owners, List.countP_eq_zero, List.countP_eq_zero]
    exact ⟨fun a ha hon => hnobody a ha _ (Caller.flight?_of_attachedTo hon) rfl,
      fun a ha hon => hnobody a ha _ (Caller.flight?_of_owns hon) rfl⟩
  have hcounts (j : ℕ) : (c.register key ttl).attached j =
        c.attached j + (if c.flights.length == j then 1 else 0) ∧
      (c.register key ttl).owners j = c.owners j + (if c.flights.length == j then 1 else 0) := by
    simp [register, attached, owners, Caller.attachedTo, Caller.owns]
  have hmem {a : Caller V} (ha : a ∈ (c.register key ttl).callers) :
      a ∈ c.callers ∨ a = .submitting c.flights.length := by
    simpa [register] using ha
  have htable (other : String) : (c.register key ttl).inFlight.find? other =
      if other = key then some c.flights.length else c.inFlight.find? other := by
    by_cases hkey : other = key
    · rw [if_pos hkey, hkey]
      exact Entries.find?_put_self key _ _
    · rw [if_neg hkey]
      exact Entries.find?_put_of_ne hkey _ _
  have hattached : (c.register key ttl).attached c.flights.length = 1 := by
    simp [(hcounts _).1, hnone.1]
  refine h.of_frame (d := c.register key ttl) (i := c.flights.length)
    (f := { key, ttl := ttl.getD c.limits.defaultTtl }) (by simp [register]) (by simp [register])
    (fun j hj => ⟨?_, ?_, ?_⟩) (fun other j hj => ?_) (fun other hother => ?_) (fun a ha => ?_)
    ⟨fun _ => hattached.symm, ?_, ?_, fun hc => absurd hc (by simp)⟩ fun ha => ?_
  · rcases Nat.lt_or_ge j c.flights.length with hlt | hge
    · exact List.getElem?_append_left hlt
    · have hout : c.flights.length + 1 ≤ j := by omega
      rw [List.getElem?_eq_none hge]
      exact List.getElem?_eq_none (by simpa [register] using hout)
  · simp [(hcounts j).1, hj.symm]
  · simp [(hcounts j).2, hj.symm]
  · rw [htable]
    by_cases hkey : other = key
    · rw [if_pos hkey, hkey, hfind]
      exact ⟨fun hsome => absurd (Option.some.inj hsome).symm hj, fun hsome => nomatch hsome⟩
    · rw [if_neg hkey]
  · rw [htable] at hother
    by_cases hkey : other = key
    · exact hkey.symm
    · rw [if_neg hkey] at hother
      obtain ⟨g, hg, -⟩ := h.known other _ hother
      exact absurd (List.getElem?_eq_some_iff.mp hg).1 (Nat.lt_irrefl _)
  · rcases hmem ha with ha | rfl
    · exact .inl ha
    · exact .inr (by rintro n ⟨⟩; rfl)
  · rw [htable, if_pos rfl, hattached]
    simp [FlightStage.isLive]
  · rw [(hcounts _).2, hnone.2]
    simp [FlightStage.isRegistered]
  · rcases hmem ha with ha | ha
    · exact absurd rfl (hnobody _ ha _ rfl)
    · exact absurd ha (by simp)

theorem sound_initial (limits : CacheLimits τ) (now : τ) : ({ limits, now } : Cache τ V).Sound := by
  refine ⟨fun key i hfind => ?_, fun a ha => ?_, fun i f hf => ?_, fun i ha => ?_⟩
  · cases hfind
  · cases ha
  · cases hf
  · cases ha

section Steps

variable [Clock τ]

theorem Sound.requested {c : Cache τ V} (h : c.Sound) (key : String) (ttl : Option τ) :
    (c.request key ttl).Sound := by
  rcases request_cases c key ttl with ⟨v, -, heq⟩ | ⟨i, -, hfind, heq⟩ | ⟨-, hfind, heq⟩
  all_goals rw [heq]
  · have hfound : ({ (c.get key).2 with hits := c.hits + 1 } : Cache τ V).Sound :=
      h.congr rfl rfl rfl
    exact hfound.addAnswer _
  · have hmissed : ({ (c.get key).2 with misses := c.misses + 1 } : Cache τ V).Sound :=
      h.congr rfl rfl rfl
    exact hmissed.joined hfind
  · have hmissed : ({ (c.get key).2 with misses := c.misses + 1 } : Cache τ V).Sound :=
      h.congr rfl rfl rfl
    exact hmissed.registered ttl hfind

theorem Sound.step {c c' : Cache τ V} (h : c.Sound) {s : CacheStep τ V} (hs : c.step? s = some c') :
    c'.Sound := by
  cases s with
  | request key ttl =>
    obtain rfl := Option.some.inj hs
    exact h.requested key ttl
  | submit k =>
    obtain ⟨i, ha, ⟨-, rfl⟩ | ⟨-, rfl⟩⟩ := submit?_cases hs
    · exact h.submitted ha rfl rfl (by rintro n ⟨⟩; rfl) (by simp [Caller.attachedTo]) rfl (by simp)
    · exact h.submitted ha rfl rfl (by rintro n ⟨⟩; rfl) (by simp [Caller.attachedTo]) rfl (by simp)
  | start i =>
    obtain ⟨f, hf, hstage, rfl⟩ := start?_cases hs
    split
    · exact h.advanced hf (by rw [hstage]; rfl) (fun _ => by rw [hstage]; rfl) (by rw [hstage]; rfl)
    · exact h.advanced hf (by rw [hstage]; rfl) (fun _ => by rw [hstage]; rfl) (by rw [hstage]; rfl)
  | finish i r =>
    obtain ⟨f, hf, hstage, ⟨v, -, rfl⟩ | ⟨e, -, rfl⟩⟩ := finish?_cases hs
    · exact h.advanced hf (by rw [hstage]; rfl) (fun _ => by rw [hstage]; rfl) (by rw [hstage]; rfl)
    · exact h.advanced hf (by rw [hstage]; rfl) (fun _ => by rw [hstage]; rfl) (by rw [hstage]; rfl)
  | stamp i =>
    obtain ⟨f, v, hf, hstage, rfl⟩ := stamp?_cases hs
    exact h.advanced hf (by rw [hstage]; rfl) (fun _ => by rw [hstage]; rfl) (by rw [hstage]; rfl)
  | settle i =>
    obtain ⟨f, hf, ⟨v, now, hstage, rfl⟩ | ⟨e, hstage, rfl⟩⟩ := settle?_cases hs
    · have hcommitted : (c.commit f v now).Sound := h.congr rfl rfl rfl
      exact hcommitted.settled hf (by rw [hstage]; rfl) (by rw [hstage]; rfl) _
    · exact h.settled hf (by rw [hstage]; rfl) (by rw [hstage]; rfl) _
  | publish i =>
    obtain ⟨f, r, hf, hstage, rfl⟩ := publish?_cases hs
    exact h.advanced hf (by rw [hstage]; rfl) (fun hd => by cases hd) (by rw [hstage]; rfl)
  | collect k =>
    obtain ⟨i, f, r, hf, hstage, hcase⟩ := collect?_cases hs
    have hdone : f.stage.isLive = false ∧ f.stage.isDone = true := by rw [hstage]; exact ⟨rfl, rfl⟩
    rcases hcase with ⟨ha, ⟨-, rfl⟩ | ⟨-, rfl⟩⟩ | ⟨ha, rfl⟩
    · exact h.moved ha hf (by rintro n ⟨⟩; rfl) (by rintro n ⟨⟩; rfl) rfl (fun hon => hon)
        (.inl hdone) (by simp)
    · exact h.moved ha hf (by rintro n ⟨⟩; rfl) (by rintro n ⟨⟩) rfl (fun hon => by cases hon)
        (.inl hdone) (by simp)
    · exact h.moved ha hf (by rintro n ⟨⟩; rfl) (by rintro n ⟨⟩) rfl (fun hon => by cases hon)
        (.inl hdone) (by simp)
  | giveUp k =>
    obtain ⟨i, f, ha, hf, -, rfl⟩ := giveUp?_cases hs
    exact h.moved ha hf (by rintro n ⟨⟩; rfl) (by rintro n ⟨⟩; rfl) rfl (fun hon => hon)
      (.inr rfl) (by simp)
  | detach k =>
    obtain ⟨i, f, ha, hf, ⟨hlast, hdone, rfl⟩ | ⟨hlast, rfl⟩⟩ := detach?_cases hs
    · exact h.deserted ha hf hlast hdone
    · exact h.left ha hf hlast _
  | cancelToken k =>
    obtain ⟨i, f, ha, hf, rfl⟩ := cancelToken?_cases hs
    exact h.cancelled ha hf _
  | get key =>
    obtain rfl := Option.some.inj hs
    exact h.congr rfl rfl rfl
  | invalidate key =>
    obtain rfl := Option.some.inj hs
    exact h.congr rfl rfl rfl
  | invalidateSite site =>
    obtain rfl := Option.some.inj hs
    exact h.congr rfl rfl rfl
  | cleanup now =>
    obtain rfl := Option.some.inj hs
    exact h.congr rfl rfl rfl
  | clear =>
    obtain rfl := Option.some.inj hs
    exact h.congr rfl rfl rfl
  | close =>
    obtain rfl := Option.some.inj hs
    exact h.congr rfl rfl rfl
  | tick now =>
    obtain rfl := Option.some.inj hs
    exact h.congr rfl rfl rfl

theorem Sound.run {c c' : Cache τ V} (h : c.Sound) {steps : List (CacheStep τ V)}
    (hs : c.run? steps = some c') : c'.Sound :=
  run_induction (P := fun _ c => c.Sound) h (fun _ _ _ _ _ hstep ih => ih.step hstep) hs

end Steps

end Cache

end CohortAnalytics
