import CohortAnalytics.Proofs.Service.Ownership
import CohortAnalytics.Proofs.Time.Conversion

/-!
How a request comes out: with its reports, whatever the store and the cache do, or refused. What it
is refused for is what it names or how it is put, except where an offset takes one of its dates out
of the calendar.
-/

namespace CohortAnalytics

namespace RequestError

/-- The request itself makes no sense: something is not given, or its window is none. -/
def isInvalid : RequestError → Bool
  | .noCohorts => true
  | .noExperiments => true
  | .cohortUnnamed => true
  | .experimentUnnamed => true
  | .siteUnnamed => true
  | .window (.timestamp (.unreadable _)) => true
  | .window (.reversed _ _) => true
  | .window .daysNotPositive => true
  | _ => false

def outsideCalendar : RequestError := .window (.timestamp .outsideCalendar)

/-- The causes that callers are told to expect. -/
def IsExpected (e : RequestError) : Prop := e.isScopeViolation = true ∨ e.isInvalid = true

theorem isExpected_or_outside (e : RequestError) : e.IsExpected ∨ e = outsideCalendar := by
  cases e with
  | cohortNotFound cohort site => exact .inl (.inl rfl)
  | experimentNotFound experiment site => exact .inl (.inl rfl)
  | window cause =>
    cases cause with
    | timestamp cause =>
      cases cause with
      | unreadable text => exact .inl (.inr rfl)
      | outsideCalendar => exact .inr rfl
    | reversed start finish => exact .inl (.inr rfl)
    | daysNotPositive => exact .inl (.inr rfl)
  | _ => exact .inl (.inr rfl)

end RequestError

theorem Catalog.Refuses.ne_window {catalog : Catalog} {r : Request} {e : RequestError}
    (h : catalog.Refuses r e) (cause : WindowError) : e ≠ .window cause := by
  cases h with
  | noIds _ =>
    unfold Request.noIds
    split_ifs <;> simp
  | unnamed _ _ =>
    unfold Request.unnamed
    split_ifs <;> simp
  | notFound _ _ _ =>
    unfold Request.notFound
    split_ifs <;> simp

namespace Service

variable {s : Service} {r : Request}

theorem checked_of_grants (h : s.catalog.Grants r) : ∃ f, s.checked r = .ok f := by
  cases hchecked : s.checked r with
  | ok f => exact ⟨f, rfl⟩
  | error e => exact absurd (checked_error hchecked) h.not_refuses

theorem length_of_tasks {ts : List ReportTask} (h : s.tasks r = .ok ts) :
    ts.length = r.reportCount := by
  obtain ⟨f, w, hf, -, hsubjects⟩ := checked_of_tasks h
  rw [tasks_eq, hsubjects] at h
  exact (mapM_ok h).length_eq.symm.trans ((checked_ok hf).2 w).1

theorem tasks_ok_iff :
    (∃ ts, s.tasks r = .ok ts) ↔ s.catalog.Grants r ∧ ∃ w, s.windowOf r.bounds = .ok w := by
  constructor
  · rintro ⟨ts, hts⟩
    obtain ⟨f, w, hf, hw, -⟩ := checked_of_tasks hts
    exact ⟨(checked_ok hf).1, w, hw⟩
  · rintro ⟨hgrants, w, hw⟩
    cases htasks : s.tasks r with
    | ok ts => exact ⟨ts, rfl⟩
    | error e =>
      rcases tasks_error htasks with hrefuses | ⟨-, hwindow⟩
      · exact absurd hrefuses hgrants.not_refuses
      · rw [hw] at hwindow
        cases hwindow

theorem tasks_outside_iff : s.tasks r = .error .outsideCalendar ↔
    s.catalog.Grants r ∧ Window.FirstLeaves r.bounds.start r.bounds.finish := by
  rw [← Window.ofRequest_outside_iff _ _ s.config.defaultWindowDays]
  constructor
  · intro h
    rcases tasks_error h with hrefuses | ⟨hgrants, hwindow⟩
    · exact absurd rfl (hrefuses.ne_window _)
    · obtain ⟨cause, hcause, he⟩ := mapError_error hwindow
      exact ⟨hgrants, RequestError.window.inj he ▸ hcause⟩
  · rintro ⟨hgrants, hwindow⟩
    obtain ⟨f, hf⟩ := checked_of_grants hgrants
    rw [tasks_eq, subjects_eq, hf, windowOf, hwindow]
    rfl

end Service

namespace Serving

variable {σ : Type} {service : Service} {store : Store σ} {r : Request} {s : Serving σ}

theorem length_serveAll (store : Store σ) (ts : List ReportTask) (s : Serving σ) :
    (s.serveAll store ts).1.length = ts.length := by
  induction ts generalizing s with
  | nil => rfl
  | cons t rest ih => exact congrArg (· + 1) (ih (s.serve store t).2)

theorem respond_ok_iff : (∃ reports, (s.respond service store r).1 = .ok reports) ↔
    ∃ ts, service.tasks r = .ok ts := by
  cases htasks : service.tasks r with
  | ok ts => simp [respond_of_tasks htasks]
  | error e => simp [respond_of_error htasks]

theorem respond_error_iff {e : RequestError} :
    (s.respond service store r).1 = .error e ↔ service.tasks r = .error e :=
  ⟨tasks_of_respond_error, fun h => by rw [respond_of_error h]⟩

/-- Whatever the store does and the cache holds, a request has its reports or is refused. It has them
if all that it names is the site's and its window is one; and there is one cause of a refusal that
callers are not told of, an instant outside the years of the calendar. -/
theorem comes_out_as_expected_or_outside (service : Service) (store : Store σ) (r : Request)
    (s : Serving σ) :
    let answer := (s.respond service store r).1
    ((∃ reports, answer = .ok reports ∧ reports.length = r.reportCount) ∨
        ∃ e, answer = .error e ∧ (e.IsExpected ∨ e = .outsideCalendar)) ∧
      ((∃ reports, answer = .ok reports) ↔
        service.catalog.Grants r ∧ ∃ w, service.windowOf r.bounds = .ok w) ∧
      (answer = .error .outsideCalendar ↔
        service.catalog.Grants r ∧ Window.FirstLeaves r.bounds.start r.bounds.finish) := by
  refine ⟨?_, respond_ok_iff.trans Service.tasks_ok_iff,
    respond_error_iff.trans Service.tasks_outside_iff⟩
  cases htasks : service.tasks r with
  | ok ts =>
    rw [respond_of_tasks htasks]
    exact .inl ⟨_, rfl, (length_serveAll store ts s).trans (Service.length_of_tasks htasks)⟩
  | error e =>
    rw [respond_of_error htasks]
    exact .inr ⟨e, rfl, e.isExpected_or_outside⟩

/-- The first hour of year 1, an hour ahead of universal time, is in no year of universal time. -/
theorem refuses_first_hour :
    let service : Service :=
      { catalog := Catalog.make [⟨"c", "shop", "All", []⟩] [], now := default }
    let r : Request :=
      .cohortMetrics "shop" "c" { start := some (.text "0001-01-01T00:30:00+01:00") }
    let s : Serving (Option EventTable) :=
      { cache := { limits := ⟨2, .int 60, by decide⟩, now := .int 0 }, store := some {} }
    ∃ e, (s.respond service Store.warehouse r).1 = .error e ∧ ¬e.IsExpected := by
  intro service r s
  have hgrants : service.catalog.Grants r :=
    ⟨by decide, List.forall_mem_singleton.mpr ⟨by decide, rfl⟩⟩
  have hread : (Iso.read (spellOffset (trimBlank "0001-01-01T00:30:00+01:00".toList))).toOption.any
      (fun s => decide s.LeavesCalendar) = true := by
    decide +kernel
  obtain ⟨stamp, hstamp, hleaves⟩ := Option.any_eq_true _ _ |>.mp hread
  have htasks : service.tasks r = .error .outsideCalendar :=
    Service.tasks_outside_iff.mpr ⟨hgrants, .start rfl ⟨stamp, hstamp, of_decide_eq_true hleaves⟩⟩
  exact ⟨_, respond_error_iff.mpr htasks, by rintro (h | h) <;> cases h⟩

end Serving

end CohortAnalytics
