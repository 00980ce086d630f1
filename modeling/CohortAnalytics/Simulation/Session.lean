import CohortAnalytics.Digest.Hashes
import CohortAnalytics.Event.Basic
import CohortAnalytics.Experiment.Assignment
import CohortAnalytics.Number.Places
import CohortAnalytics.Simulation.Config
import CohortAnalytics.Simulation.Draw
import CohortAnalytics.Text.Characters

/-!
One simulated session: page views, then perhaps clicks, a scroll and a form, and in the end perhaps
a checkout. A visitor in any variant but the control is more likely to check out.
-/

namespace CohortAnalytics

structure Visitor where
  site : String
  session : String
  deviceType : DeviceType
  referrer : String
  userLanguage : String
  userAgent : String
  assignments : Entries String
  offset : Option Int

structure EventDraft where
  type : EventType
  page : String
  loadTime : Float := 0.0
  scrollDepth : Float := 0.0
  isDeadClick : Bool := false
  data : List (String × Json) := []

structure SimulatedSession where
  visitor : Visitor
  events : List Event
  checkedOut : Bool

namespace Simulation

variable {σ : Type}

def secondsPerDay : Int := 86400

def viewportOf : DeviceType → Int
  | .desktop => 1440
  | .mobile => 390
  | .tablet => 820

def later (t : Instant) (seconds : Int) : Draw σ Instant := fun s =>
  match t.shift? (seconds * microsPerSecond) with
  | some t => .ok (t, s)
  | none => .error .beyondRange

def eventOf (v : Visitor) (d : EventDraft) (id : String) (t : Instant) : Event where
  id := id
  site := v.site
  session := v.session
  type := d.type
  timestamp := ⟨t, v.offset⟩
  pagePath := d.page
  referrer := v.referrer
  userAgent := v.userAgent
  userLanguage := v.userLanguage
  deviceType := v.deviceType
  viewportWidth := viewportOf v.deviceType
  scrollDepth := d.scrollDepth
  loadTime := d.loadTime
  isDeadClick := d.isDeadClick
  experimentIds := v.assignments.map Prod.fst
  variantIds := v.assignments.map Prod.snd
  data := d.data

def idBytes : Nat := 16

/-- An event at a moment, and the moment of the next one, 2 to 90 seconds later. -/
def emit (source : RandomSource σ) (v : Visitor) (d : EventDraft) (t : Instant) :
    Draw σ (Event × Instant) := do
  let bytes ← fun s => .ok (source.block idBytes s)
  let step ← Draw.between source 2 90
  return (eventOf v d (bytesHex (Digest.md5 bytes)) t, ← later t step)

def emitAll (source : RandomSource σ) (v : Visitor) :
    List (Draw σ EventDraft) → Instant → Draw σ (List Event × Instant)
  | [], t => return ([], t)
  | draft :: rest, t => do
    let (e, t) ← emit source v (← draft) t
    let (es, t) ← emitAll source v rest t
    return (e :: es, t)

def visitor (source : RandomSource σ) (c : SimulationConfig) (session : String)
    (assignments : Entries String) (offset : Option Int) : Draw σ Visitor := do
  let device ← Draw.weighted source c.devices c.deviceWeights
  match DeviceType.ofName? device with
  | none => Draw.fail (.invalid (quotedText device ++ " is not a valid DeviceType"))
  | some deviceType =>
    let referrer ← Draw.choose source c.referrers
    let userLanguage ← Draw.choose source c.languages
    let userAgent ← Draw.choose source c.userAgents
    return { site := c.site, session, deviceType, referrer, userLanguage, userAgent, assignments,
             offset }

/-- As many draws as a number says, none for a number below zero. -/
def chooseMany (source : RandomSource σ) (xs : List String) : Nat → Draw σ (List String)
  | 0 => return []
  | n + 1 => do
    let x ← Draw.choose source xs
    return x :: (← chooseMany source xs n)

def pagesOf (source : RandomSource σ) (c : SimulationConfig) : Draw σ (List String) := do
  let count ← Draw.between source c.minPageViews c.maxPageViews
  chooseMany source c.pages count.toNat

def pageView (source : RandomSource σ) (page : String) : Draw σ EventDraft := do
  return { type := .pageView, page, loadTime := roundPlaces 2 (← Draw.uniform source 0.2 4.0) }

def click (source : RandomSource σ) (c : SimulationConfig) (pages : List String) :
    Draw σ EventDraft := do
  let page ← Draw.choose source pages
  return { type := .click, page, isDeadClick := ← Draw.happens source c.rageClickChance }

def scroll (source : RandomSource σ) (pages : List String) : Draw σ EventDraft := do
  let page ← Draw.choose source pages
  return { type := .scroll, page, scrollDepth := roundPlaces 1 (← Draw.uniform source 10 100) }

def clicks (source : RandomSource σ) (c : SimulationConfig) (pages : List String) :
    Draw σ (List (Draw σ EventDraft)) := do
  if ← Draw.happens source c.clickChance then
    let count ← Draw.between source 1 c.maxClicks
    return List.replicate count.toNat (click source c pages)
  else return []

def scrolls (source : RandomSource σ) (c : SimulationConfig) (pages : List String) :
    Draw σ (List (Draw σ EventDraft)) := do
  return if ← Draw.happens source c.scrollChance then [scroll source pages] else []

def forms (source : RandomSource σ) (c : SimulationConfig) :
    Draw σ (List (Draw σ EventDraft)) := do
  return if ← Draw.happens source c.formChance
    then [return { type := .formInteraction, page := "/cart" }] else []

/-- At most one, where the uplift counts. -/
def checkoutChance (c : SimulationConfig) (assignments : Entries String) : Float :=
  if assignments.any fun a => a.2 != "control" then
    let chance := c.checkoutChance + c.treatmentUplift
    if 1.0 < chance then 1.0 else chance
  else c.checkoutChance

def goalDraft (e : Experiment) (variant : String) (order : Number) (g : Goal) : EventDraft where
  type := .experimentGoal
  page := "/checkout"
  data := [("experiment_id", .text e.id), ("variant_id", .text variant), ("goal_id", .text g.id),
    ("goal_type", .text g.type.name),
    ("revenue_value", .number (if g.type = .revenue then order else .int 0))]

def checkoutDrafts (experiments : List Experiment) (assignments : Entries String)
    (order : Number) : List EventDraft :=
  experiments.flatMap fun e =>
    match assignments.find? e.id with
    | none => []
    | some variant =>
      { type := .conversion, page := "/checkout", data := [("event_name", .text e.goalEvent)] } ::
        e.goals.map (goalDraft e variant order)

def checkout (source : RandomSource σ) (c : SimulationConfig) (experiments : List Experiment)
    (assignments : Entries String) : Draw σ (Bool × List EventDraft) := do
  let share ← Draw.share source
  if checkoutChance c assignments ≤ share then return (false, [])
  else
    let order ← Draw.weighted source c.orderValues c.orderWeights
    return (true, checkoutDrafts experiments assignments order)

def session (source : RandomSource σ) (buckets : Bucketing) (c : SimulationConfig)
    (experiments : List Experiment) (start : Stamp) (name : String) :
    Draw σ SimulatedSession := do
  let delay ← Draw.between source 0 (c.days * secondsPerDay)
  let t ← later start.wall delay
  let assignments ← StateT.lift (assignAll buckets experiments name)
  let v ← visitor source c name assignments start.offset
  let pages ← pagesOf source c
  let (views, t) ← emitAll source v (pages.map (pageView source)) t
  let (clicked, t) ← emitAll source v (← clicks source c pages) t
  let (scrolled, t) ← emitAll source v (← scrolls source c pages) t
  let (filled, t) ← emitAll source v (← forms source c) t
  let (checkedOut, drafts) ← checkout source c experiments assignments
  let (last, _) ← emitAll source v (drafts.map fun d => return d) t
  return { visitor := v, events := views ++ clicked ++ scrolled ++ filled ++ last, checkedOut }

end Simulation

end CohortAnalytics
