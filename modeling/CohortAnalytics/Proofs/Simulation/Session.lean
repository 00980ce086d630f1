import CohortAnalytics.Proofs.Results
import CohortAnalytics.Proofs.Time.Resolution
import CohortAnalytics.Simulation.Session

/-!
What is in a simulated session, whatever is drawn: page views and perhaps other browsing, and after
them, if the visitor checks out, the conversion and the goals of every experiment that the visitor
takes part in.
-/

namespace CohortAnalytics

namespace Draw

variable {σ α β : Type} {source : RandomSource σ} {s s' : σ}

theorem bind_ok {m : Draw σ α} {f : α → Draw σ β} {b : β} (h : (m >>= f) s = .ok (b, s')) :
    ∃ a t, m s = .ok (a, t) ∧ f a t = .ok (b, s') := by
  obtain ⟨⟨a, t⟩, hm, hf⟩ := CohortAnalytics.bind_ok h
  exact ⟨a, t, hm, hf⟩

theorem pure_ok {a b : α} (h : (pure a : Draw σ α) s = .ok (b, s')) : a = b :=
  congrArg Prod.fst (Except.ok.inj h)

theorem between_ok {low high n : ℤ} (h : between source low high s = .ok (n, s')) :
    low ≤ n ∧ n ≤ high := by
  rw [between] at h
  split_ifs at h
  obtain rfl := congrArg Prod.fst (Except.ok.inj h)
  have hlt := (source.below (high - low + 1).toNat (by omega) s).1.isLt
  dsimp only
  omega

theorem lift_ok {m : Except Failure α} {a : α}
    (h : (StateT.lift m : Draw σ α) s = .ok (a, s')) : m = .ok a := by
  obtain ⟨b, hb, h⟩ := CohortAnalytics.bind_ok h
  rw [hb, ← (Prod.mk.inj (Except.ok.inj h)).1]

end Draw

/-- What a visitor does before a checkout. -/
def browsingTypes : List EventType := [.pageView, .click, .scroll, .formInteraction]

/-- Browsing has nothing in the payload. -/
def EventDraft.IsBrowsing (d : EventDraft) : Prop := d.type ∈ browsingTypes ∧ d.data = []

def EventDraft.conversion (e : Experiment) : EventDraft where
  type := .conversion
  page := "/checkout"
  data := [("event_name", .text e.goalEvent)]

/-- The event is made of the draft, at some moment. -/
def Visitor.Emits (v : Visitor) (d : EventDraft) (e : Event) : Prop :=
  ∃ id t, e = Simulation.eventOf v d id t

/-- The later moment is that of the next event. -/
def Paced (t t' : Instant) : Prop :=
  ∃ seconds : ℕ, 2 ≤ seconds ∧ seconds ≤ 90 ∧ t'.micros = t.micros + seconds * microsPerSecond

/-- Events at their pace from a moment on, up to the moment of an event to come. -/
inductive Timeline : Instant → List Event → Instant → Prop
  | nil (t : Instant) : Timeline t [] t
  | cons {e : Event} {es : List Event} {t t' : Instant} (hnext : Paced e.timestamp.wall t)
      (hrest : Timeline t es t') : Timeline e.timestamp.wall (e :: es) t'

theorem Timeline.append {es es' : List Event} {t t' t'' : Instant} (h : Timeline t es t')
    (h' : Timeline t' es' t'') : Timeline t (es ++ es') t'' := by
  induction h with
  | nil t => exact h'
  | cons hnext _ ih => exact .cons hnext (ih h')

namespace Simulation

open Draw

variable {σ : Type} {source : RandomSource σ} {v : Visitor} {s s' : σ} {t t' : Instant}
  {c : SimulationConfig} {experiments : List Experiment} {assignments : Entries String}

theorem later_ok {seconds : ℤ} (h : later t seconds s = .ok (t', s')) :
    (t'.micros : ℤ) = t.micros + seconds * microsPerSecond := by
  rw [later] at h
  split at h
  case h_1 next hnext =>
    obtain rfl := (Prod.mk.inj (Except.ok.inj h)).1
    exact Window.micros_of_shift? hnext
  case h_2 => cases h

theorem emit_ok {d : EventDraft} {e : Event} (h : emit source v d t s = .ok ((e, t'), s')) :
    v.Emits d e ∧ e.timestamp.wall = t ∧ Paced t t' := by
  obtain ⟨bytes, s₁, -, h⟩ := Draw.bind_ok h
  obtain ⟨step, s₂, hstep, h⟩ := Draw.bind_ok h
  obtain ⟨next, s₃, hnext, h⟩ := Draw.bind_ok h
  obtain ⟨rfl, rfl⟩ := Prod.mk.inj (pure_ok h)
  obtain ⟨hlow, hhigh⟩ := between_ok hstep
  obtain ⟨seconds, rfl⟩ := Int.eq_ofNat_of_zero_le (show 0 ≤ step by omega)
  have hmicros := later_ok hnext
  exact ⟨⟨_, _, rfl⟩, rfl, seconds, by omega, by omega, by exact_mod_cast hmicros⟩

def Yields (draft : Draw σ EventDraft) (d : EventDraft) : Prop := ∃ s s', draft s = .ok (d, s')

theorem emitAll_ok {drafts : List (Draw σ EventDraft)} {es : List Event}
    (h : emitAll source v drafts t s = .ok ((es, t'), s')) :
    List.Forall₂ (fun draft e => ∃ d, Yields draft d ∧ v.Emits d e) drafts es ∧
      Timeline t es t' := by
  induction drafts generalizing es t t' s s' with
  | nil =>
    obtain ⟨rfl, rfl⟩ := Prod.mk.inj (pure_ok h)
    exact ⟨.nil, .nil t⟩
  | cons draft rest ih =>
    obtain ⟨d, s₁, hd, h⟩ := Draw.bind_ok h
    obtain ⟨⟨e, t₁⟩, s₂, he, h⟩ := Draw.bind_ok h
    obtain ⟨⟨es', t₂⟩, s₃, hes, h⟩ := Draw.bind_ok h
    obtain ⟨rfl, rfl⟩ := Prod.mk.inj (pure_ok h)
    obtain ⟨hemits, rfl, hnext⟩ := emit_ok he
    obtain ⟨hrest, htimes⟩ := ih hes
    exact ⟨.cons ⟨d, ⟨s, s₁, hd⟩, hemits⟩ hrest, .cons hnext htimes⟩

/-- Whatever is drawn for them, the drafts are browsing. -/
def AreBrowsing (drafts : List (Draw σ EventDraft)) : Prop :=
  ∀ draft ∈ drafts, ∀ d, Yields draft d → d.IsBrowsing

theorem browsing_of_emitAll {drafts : List (Draw σ EventDraft)} {es : List Event}
    (hdrafts : AreBrowsing drafts) (h : emitAll source v drafts t s = .ok ((es, t'), s')) :
    ∀ e ∈ es, ∃ d, d.IsBrowsing ∧ v.Emits d e := by
  intro e he
  obtain ⟨draft, hdraft, d, hyields, hemits⟩ := exists_of_forall₂ (emitAll_ok h).1 he
  exact ⟨d, hdrafts draft hdraft d hyields, hemits⟩

theorem emits_of_emitAll_pure {drafts : List EventDraft} {es : List Event}
    (h : emitAll source v (drafts.map fun d => pure d) t s = .ok ((es, t'), s')) :
    List.Forall₂ v.Emits drafts es := by
  refine (List.forall₂_map_left_iff.mp (emitAll_ok h).1).imp ?_
  rintro d e ⟨d', ⟨s, s', hd⟩, hemits⟩
  obtain rfl := pure_ok hd
  exact hemits

section Browsing

variable {pages : List String}

theorem pageView_yields {page : String} {d : EventDraft} (h : Yields (pageView source page) d) :
    d.type = .pageView ∧ d.data = [] := by
  obtain ⟨s, s', h⟩ := h
  obtain ⟨x, s₁, -, h⟩ := Draw.bind_ok h
  obtain rfl := pure_ok h
  exact ⟨rfl, rfl⟩

theorem views_of_emitAll {es : List Event}
    (h : emitAll source v (pages.map (pageView source)) t s = .ok ((es, t'), s')) :
    es.length = pages.length ∧ ∀ e ∈ es, ∃ d, d.type = .pageView ∧ d.data = [] ∧ v.Emits d e := by
  obtain ⟨hemitted, -⟩ := emitAll_ok h
  refine ⟨by rw [← hemitted.length_eq, List.length_map], fun e he => ?_⟩
  obtain ⟨draft, hdraft, d, hyields, hemits⟩ := exists_of_forall₂ hemitted he
  obtain ⟨page, -, rfl⟩ := List.mem_map.mp hdraft
  obtain ⟨htype, hdata⟩ := pageView_yields hyields
  exact ⟨d, htype, hdata, hemits⟩

theorem clicks_areBrowsing {drafts : List (Draw σ EventDraft)}
    (h : clicks source c pages s = .ok (drafts, s')) : AreBrowsing drafts := by
  obtain ⟨happens, s₁, -, h⟩ := Draw.bind_ok h
  split_ifs at h
  · obtain ⟨count, s₂, -, h⟩ := Draw.bind_ok h
    obtain rfl := pure_ok h
    intro draft hdraft d hd
    obtain rfl := List.eq_of_mem_replicate hdraft
    obtain ⟨s, s', hd⟩ := hd
    obtain ⟨page, s₁, -, hd⟩ := Draw.bind_ok hd
    obtain ⟨dead, s₂, -, hd⟩ := Draw.bind_ok hd
    obtain rfl := pure_ok hd
    exact ⟨by simp [browsingTypes], rfl⟩
  · obtain rfl := pure_ok h
    simp [AreBrowsing]

theorem scrolls_areBrowsing {drafts : List (Draw σ EventDraft)}
    (h : scrolls source c pages s = .ok (drafts, s')) : AreBrowsing drafts := by
  obtain ⟨happens, s₁, -, h⟩ := Draw.bind_ok h
  obtain rfl := pure_ok h
  split_ifs
  · intro draft hdraft d hd
    obtain rfl := List.mem_singleton.mp hdraft
    obtain ⟨s, s', hd⟩ := hd
    obtain ⟨page, s₁, -, hd⟩ := Draw.bind_ok hd
    obtain ⟨depth, s₂, -, hd⟩ := Draw.bind_ok hd
    obtain rfl := pure_ok hd
    exact ⟨by simp [browsingTypes], rfl⟩
  · simp [AreBrowsing]

theorem forms_areBrowsing {drafts : List (Draw σ EventDraft)}
    (h : forms source c s = .ok (drafts, s')) : AreBrowsing drafts := by
  obtain ⟨happens, s₁, -, h⟩ := Draw.bind_ok h
  obtain rfl := pure_ok h
  split_ifs
  · intro draft hdraft d hd
    obtain rfl := List.mem_singleton.mp hdraft
    obtain ⟨s, s', hd⟩ := hd
    obtain rfl := pure_ok hd
    exact ⟨by simp [browsingTypes], rfl⟩
  · simp [AreBrowsing]

theorem length_chooseMany {n : ℕ} {xs : List String}
    (h : chooseMany source pages n s = .ok (xs, s')) : xs.length = n := by
  induction n generalizing s s' xs with
  | zero =>
    obtain rfl := pure_ok h
    rfl
  | succ n ih =>
    obtain ⟨x, s₁, -, h⟩ := Draw.bind_ok h
    obtain ⟨rest, s₂, hrest, h⟩ := Draw.bind_ok h
    obtain rfl := pure_ok h
    rw [List.length_cons, ih hrest]

theorem length_pagesOf (h : pagesOf source c s = .ok (pages, s')) :
    c.minPageViews ≤ pages.length := by
  obtain ⟨count, s₁, hcount, h⟩ := Draw.bind_ok h
  rw [length_chooseMany h]
  exact (between_ok hcount).1.trans (Int.self_le_toNat _)

end Browsing

theorem visitor_ok {name : String} {offset : Option ℤ}
    (h : visitor source c name assignments offset s = .ok (v, s')) :
    v.site = c.site ∧ v.session = name ∧ v.assignments = assignments ∧ v.offset = offset := by
  obtain ⟨device, s₁, -, h⟩ := Draw.bind_ok h
  cases hdevice : DeviceType.ofName? device with
  | none =>
    rw [hdevice] at h
    cases h
  | some type =>
    rw [hdevice] at h
    obtain ⟨referrer, s₂, -, h⟩ := Draw.bind_ok h
    obtain ⟨language, s₃, -, h⟩ := Draw.bind_ok h
    obtain ⟨agent, s₄, -, h⟩ := Draw.bind_ok h
    obtain rfl := pure_ok h
    exact ⟨rfl, rfl, rfl, rfl⟩

/-- Without a checkout nothing more is drafted. -/
theorem checkout_ok {checkedOut : Bool} {drafts : List EventDraft}
    (h : checkout source c experiments assignments s = .ok ((checkedOut, drafts), s')) :
    checkedOut = false ∧ drafts = [] ∨
      checkedOut = true ∧ ∃ order, drafts = checkoutDrafts experiments assignments order := by
  obtain ⟨share, s₁, -, h⟩ := Draw.bind_ok h
  split_ifs at h
  · obtain ⟨rfl, rfl⟩ := Prod.mk.inj (pure_ok h)
    exact .inl ⟨rfl, rfl⟩
  · obtain ⟨order, s₂, -, h⟩ := Draw.bind_ok h
    obtain ⟨rfl, rfl⟩ := Prod.mk.inj (pure_ok h)
    exact .inr ⟨rfl, order, rfl⟩

theorem conversion_mem_checkoutDrafts {e : Experiment} (he : e ∈ experiments) {variant : String}
    (h : assignments.find? e.id = some variant) (order : Number) :
    .conversion e ∈ checkoutDrafts experiments assignments order := by
  refine List.mem_flatMap.mpr ⟨e, he, ?_⟩
  rw [h]
  exact List.mem_cons_self

end Simulation

def SimulatedSession.name (r : SimulatedSession) : String := r.visitor.session

open Simulation in
/-- What holds of a session under a name, whatever was drawn for it. -/
structure SimulatedSession.IsOf (r : SimulatedSession) (buckets : Bucketing) (c : SimulationConfig)
    (experiments : List Experiment) (start : Stamp) (name : String) : Prop where
  site : r.visitor.site = c.site
  name_eq : r.name = name
  assignments : assignAll buckets experiments name = .ok r.visitor.assignments
  offset : r.visitor.offset = start.offset
  /-- it begins on one of the days after the start -/
  timeline : ∃ t t', start.wall.micros ≤ t.micros ∧
    t.micros ≤ start.wall.micros + c.days * secondsPerDay * microsPerSecond ∧
    Timeline t r.events t'
  /-- page views, other browsing, and after it what belongs to a checkout -/
  events : ∃ views browsed last, r.events = views ++ browsed ++ last ∧
    c.minPageViews ≤ views.length ∧
    (∀ e ∈ views, ∃ d, d.type = .pageView ∧ d.data = [] ∧ r.visitor.Emits d e) ∧
    (∀ e ∈ browsed, ∃ d, d.IsBrowsing ∧ r.visitor.Emits d e) ∧
    (r.checkedOut = false ∧ last = [] ∨ r.checkedOut = true ∧ ∃ order,
      List.Forall₂ r.visitor.Emits (checkoutDrafts experiments r.visitor.assignments order) last)

namespace Simulation

open Draw

variable {σ : Type} {source : RandomSource σ} {buckets : Bucketing} {c : SimulationConfig}
  {experiments : List Experiment} {start : Stamp} {name : String} {s s' : σ} {r : SimulatedSession}

theorem session_ok (h : session source buckets c experiments start name s = .ok (r, s')) :
    r.IsOf buckets c experiments start name := by
  obtain ⟨delay, s₁, hdelay, h⟩ := Draw.bind_ok h
  obtain ⟨t, s₂, ht, h⟩ := Draw.bind_ok h
  obtain ⟨assignments, s₃, hassign, h⟩ := Draw.bind_ok h
  obtain ⟨v, s₄, hv, h⟩ := Draw.bind_ok h
  obtain ⟨pages, s₅, hpages, h⟩ := Draw.bind_ok h
  obtain ⟨⟨views, t₁⟩, s₆, hviews, h⟩ := Draw.bind_ok h
  obtain ⟨clickDrafts, s₇, hclickDrafts, h⟩ := Draw.bind_ok h
  obtain ⟨⟨clicked, t₂⟩, s₈, hclicked, h⟩ := Draw.bind_ok h
  obtain ⟨scrollDrafts, s₉, hscrollDrafts, h⟩ := Draw.bind_ok h
  obtain ⟨⟨scrolled, t₃⟩, s₁₀, hscrolled, h⟩ := Draw.bind_ok h
  obtain ⟨formDrafts, s₁₁, hformDrafts, h⟩ := Draw.bind_ok h
  obtain ⟨⟨filled, t₄⟩, s₁₂, hfilled, h⟩ := Draw.bind_ok h
  obtain ⟨⟨checkedOut, drafts⟩, s₁₃, hcheckout, h⟩ := Draw.bind_ok h
  obtain ⟨⟨last, t₅⟩, s₁₄, hlast, h⟩ := Draw.bind_ok h
  obtain rfl := pure_ok h
  obtain ⟨hsite, hsession, rfl, hoffset⟩ := visitor_ok hv
  obtain ⟨hviewCount, hviewed⟩ := views_of_emitAll hviews
  refine ⟨hsite, hsession, lift_ok hassign, hoffset, ⟨t, t₅, ?_, ?_, ?_⟩,
    views, clicked ++ scrolled ++ filled, last, by simp, ?_, hviewed, ?_, ?_⟩
  · have hmicros := later_ok ht
    have hnonneg := mul_nonneg (between_ok hdelay).1 (Int.natCast_nonneg microsPerSecond)
    omega
  · have hmicros := later_ok ht
    have hle := mul_le_mul_of_nonneg_right (between_ok hdelay).2 (Int.natCast_nonneg microsPerSecond)
    omega
  · exact ((((emitAll_ok hviews).2.append (emitAll_ok hclicked).2).append
      (emitAll_ok hscrolled).2).append (emitAll_ok hfilled).2).append (emitAll_ok hlast).2
  · rw [hviewCount]
    exact length_pagesOf hpages
  · simp only [List.forall_mem_append]
    exact ⟨⟨browsing_of_emitAll (clicks_areBrowsing hclickDrafts) hclicked,
      browsing_of_emitAll (scrolls_areBrowsing hscrollDrafts) hscrolled⟩,
      browsing_of_emitAll (forms_areBrowsing hformDrafts) hfilled⟩
  · have hlast := emits_of_emitAll_pure hlast
    rcases checkout_ok hcheckout with ⟨rfl, rfl⟩ | ⟨rfl, order, rfl⟩
    · exact .inl ⟨rfl, List.forall₂_nil_left_iff.mp hlast⟩
    · exact .inr ⟨rfl, order, hlast⟩

end Simulation

end CohortAnalytics
