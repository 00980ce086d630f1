import CohortAnalytics.Proofs.Number.Order
import CohortAnalytics.Proofs.Service.Failing
import CohortAnalytics.Proofs.Statistics.Bounds
import CohortAnalytics.Proofs.Time.Conversion

/-!
The verdict that a report is shown with, beside its numbers. It is found a second time from the
significance, the winner and the users, and says the same of them, but where the winner's id is the
empty text: such a winner is not announced.
-/

namespace CohortAnalytics

namespace Verdict

variable {v w : Verdict} {confidence : Float} {isSignificant : Bool} {winner : Option String}
  {users : ℕ}

theorem name_inj : v.name = w.name ↔ v = w := by
  cases v <;> cases w <;> simp [name]

/-- There is a winner, and its id is not the empty text. -/
def HasAnnounced (winner : Option String) : Prop := ∃ id, winner = some id ∧ id ≠ ""

theorem any_iff : winner.any (· ≠ "") = true ↔ HasAnnounced winner := by
  simp [HasAnnounced, Option.any_eq_true]

def Holds (confidence : Float) (isSignificant : Bool) (winner : Option String) (users : ℕ) :
    Verdict → Prop
  | .notEnoughData => users < minimumObservations
  | .winnerFound => minimumObservations ≤ users ∧ isSignificant = true ∧ HasAnnounced winner
  | .trending => minimumObservations ≤ users ∧ isSignificant = false ∧ 80.0 ≤ confidence
  | .noDifference => minimumObservations ≤ users ∧ (isSignificant = true → ¬HasAnnounced winner) ∧
      (isSignificant = false → ¬80.0 ≤ confidence)

theorem holds_decide (confidence : Float) (isSignificant : Bool) (winner : Option String)
    (users : ℕ) : Holds confidence isSignificant winner users
      (decide (.float confidence) isSignificant winner (.int users)) := by
  have htrend : trendingThreshold.le (.float confidence) = true ↔ 80.0 ≤ confidence :=
    Number.le_float
  rw [decide, Number.lt_int]
  by_cases hfew : users < minimumObservations
  · rw [decide_eq_true (by exact_mod_cast hfew), if_pos rfl]
    exact hfew
  · rw [decide_eq_false (by exact_mod_cast hfew), if_neg Bool.false_ne_true]
    have hmany := Nat.le_of_not_lt hfew
    cases isSignificant with
    | true =>
      simp only [Bool.true_and, Bool.not_true, Bool.false_and, Bool.false_eq_true, if_false]
      split_ifs with hwinner
      · exact ⟨hmany, rfl, any_iff.mp hwinner⟩
      · exact ⟨hmany, fun _ => mt any_iff.mpr hwinner, fun h => by cases h⟩
    | false =>
      simp only [Bool.false_and, Bool.false_eq_true, if_false, Bool.not_false, Bool.true_and, htrend]
      split_ifs with hconfidence
      · exact ⟨hmany, rfl, hconfidence⟩
      · exact ⟨hmany, fun h => absurd h Bool.false_ne_true, fun _ => hconfidence⟩

theorem Holds.unique (hv : Holds confidence isSignificant winner users v)
    (hw : Holds confidence isSignificant winner users w) : v = w := by
  cases v <;> cases w <;> simp only [Holds] at hv hw <;> grind

theorem decide_eq_iff : decide (.float confidence) isSignificant winner (.int users) = v ↔
    Holds confidence isSignificant winner users v :=
  ⟨fun h => h ▸ holds_decide _ _ _ _, fun h => (holds_decide _ _ _ _).unique h⟩

theorem head?_append {s : String} {c : Char} (h : s.toList.head? = some c) (t : String) :
    (s ++ t).toList.head? = some c := by
  rw [String.toList_append, List.head?_append, h]
  rfl

def initial : Verdict → Char
  | .notEnoughData => 'C'
  | .trending => 'T'
  | .winnerFound => 'W'
  | .noDifference => 'N'

theorem head?_describe (v : Verdict) (confidence : Float) (name : Option String) :
    (v.describe confidence name).toList.head? = some v.initial := by
  cases v with
  | notEnoughData => exact head?_append (head?_append (by decide) _) _
  | trending => exact head?_append (head?_append (by decide) _) _
  | winnerFound => exact head?_append (head?_append (head?_append (head?_append (by decide) _) _) _) _
  | noDifference =>
    change "No significant difference detected yet. Continue running the test.".toList.head? = _
    decide

/-- Of all descriptions only that of a winner starts so. -/
theorem describe_starts_iff {name : Option String} :
    (∃ rest, v.describe confidence name = "Winner found! " ++ rest) ↔ v = .winnerFound := by
  constructor
  · rintro ⟨rest, h⟩
    have hinitial := v.head?_describe confidence name
    rw [h, head?_append (c := 'W') (by decide)] at hinitial
    cases v <;> simp [initial] at hinitial ⊢
  · rintro rfl
    refine ⟨name.getD "None" ++ (" with " ++ (fixedPlaces 0 confidence ++ "% confidence.")), ?_⟩
    rw [← String.append_assoc, ← String.append_assoc, ← String.append_assoc]
    rfl

end Verdict

namespace ExperimentReport

variable {config : Config} {curve : NormalCurve} {now : Instant} {e : Experiment}
  {r : ExperimentReport}

/-- The verdict that the numbers of a report lead to. -/
def verdict (r : ExperimentReport) : Verdict :=
  .decide (.float r.confidence) r.isSignificant r.winner (.int r.totalUsers)

structure ShowsVerdict (e : Experiment) (r : ExperimentReport) : Prop where
  message : r.statusMessage = r.verdict.name
  text : r.statusText =
    r.verdict.describe r.confidence ((r.winner.filter (· ≠ "")).map e.variantName)

theorem showsVerdict_of_ofCounts {counts : Entries AggregateRow} {goals : List GoalRow}
    (h : ofCounts config curve now e counts goals = .ok r) : r.ShowsVerdict e := by
  obtain ⟨variants, -, h⟩ := bind_ok h
  obtain ⟨size, -, h⟩ := bind_ok h
  obtain ⟨days, -, h⟩ := bind_ok h
  obtain rfl := Except.ok.inj h
  exact ⟨rfl, rfl⟩

/-- The verdict and the winner of a report fit together, and to its numbers. -/
structure VerdictFits (e : Experiment) (r : ExperimentReport) : Prop where
  significant_iff : r.isSignificant = true ↔ ∃ id, r.winner = some id
  winnerFound_iff : r.statusMessage = "winner found" ↔ ∃ id, r.winner = some id ∧ id ≠ ""
  notEnoughData_iff : r.statusMessage = "not enough data" ↔ r.totalUsers < 100
  trending_iff : r.statusMessage = "trending but not significant" ↔
    100 ≤ r.totalUsers ∧ r.isSignificant = false ∧ 80.0 ≤ r.confidence
  noDifference_iff : r.statusMessage = "no meaningful difference" ↔
    100 ≤ r.totalUsers ∧ (r.winner = some "" ∨ r.isSignificant = false ∧ ¬80.0 ≤ r.confidence)
  names_winner : ∀ id, r.winner = some id → id ≠ "" → r.statusText =
    "Winner found! " ++ e.variantName id ++ " with " ++ fixedPlaces 0 r.confidence ++ "% confidence."
  names_iff : (∃ rest, r.statusText = "Winner found! " ++ rest) ↔
    ∃ id, r.winner = some id ∧ id ≠ ""

/-- A significant test has a hundred users in each of its variants. -/
theorem Summarizes.users_ge (h : r.Summarizes curve) (hsignificant : r.isSignificant = true) :
    minimumObservations ≤ r.totalUsers := by
  rw [h.isSignificant] at hsignificant
  obtain ⟨hwinner, henough⟩ := Analysis.ofVariants_significant hsignificant
  obtain ⟨id, hid⟩ := Option.isSome_iff_exists.mp hwinner
  obtain ⟨v, hv, -⟩ := List.mem_map.mp (Analysis.winner_ofVariants hid).1
  rw [h.totalUsers, sumUsers]
  exact (henough v hv).trans (List.single_le_sum (by simp) _ (List.mem_map_of_mem hv))

theorem Summarizes.significant_iff (h : r.Summarizes curve) :
    r.isSignificant = true ↔ ∃ id, r.winner = some id := by
  rw [h.isSignificant, h.winner, ← Analysis.winner_isSome_iff, Option.isSome_iff_exists]

theorem Summarizes.winnerFound_iff (h : r.Summarizes curve) :
    r.verdict = .winnerFound ↔ Verdict.HasAnnounced r.winner := by
  rw [verdict, Verdict.decide_eq_iff, Verdict.Holds]
  refine ⟨fun hholds => hholds.2.2, fun hwinner => ?_⟩
  have hsignificant := h.significant_iff.mpr (hwinner.imp fun _ hid => hid.1)
  exact ⟨h.users_ge hsignificant, hsignificant, hwinner⟩

theorem Summarizes.noDifference_iff (h : r.Summarizes curve) : r.verdict = .noDifference ↔
    100 ≤ r.totalUsers ∧ (r.winner = some "" ∨ r.isSignificant = false ∧ ¬80.0 ≤ r.confidence) := by
  rw [verdict, Verdict.decide_eq_iff, Verdict.Holds]
  refine and_congr_right fun _ => ?_
  cases hsignificant : r.isSignificant with
  | true =>
    obtain ⟨id, hid⟩ := h.significant_iff.mp hsignificant
    simp [Verdict.HasAnnounced, hid]
  | false =>
    have hnone : r.winner ≠ some "" := fun hwinner =>
      absurd (h.significant_iff.mpr ⟨_, hwinner⟩) (by simp [hsignificant])
    simp [hnone]

theorem verdictFits_of_ofCounts {counts : Entries AggregateRow} {goals : List GoalRow}
    (h : ofCounts config curve now e counts goals = .ok r) : r.VerdictFits e := by
  obtain ⟨-, hsummary⟩ := ofCounts_inv h
  obtain ⟨hmessage, htext⟩ := showsVerdict_of_ofCounts h
  have hshown (v : Verdict) : r.statusMessage = v.name ↔ r.verdict = v := by
    rw [hmessage, Verdict.name_inj]
  constructor
  case significant_iff => exact hsummary.significant_iff
  case winnerFound_iff => exact (hshown .winnerFound).trans hsummary.winnerFound_iff
  case notEnoughData_iff => exact (hshown .notEnoughData).trans Verdict.decide_eq_iff
  case trending_iff => exact (hshown .trending).trans Verdict.decide_eq_iff
  case noDifference_iff => exact (hshown .noDifference).trans hsummary.noDifference_iff
  case names_winner =>
    intro id hid hne
    rw [htext, hsummary.winnerFound_iff.mpr ⟨id, hid, hne⟩, hid, Option.filter_some_pos (by simpa)]
    rfl
  case names_iff =>
    rw [htext, Verdict.describe_starts_iff]
    exact hsummary.winnerFound_iff

/-- Whatever the store answers, the verdict of a report that comes of it, its winner and its numbers
fit together, but for a winner that goes by the empty text. -/
theorem compute_verdictFits (config : Config) (curve : NormalCurve) (now : Instant) (e : Experiment)
    (w : Window) (includeGoals : Bool) {σ : Type} (store : Store σ) (s : σ) {r : ExperimentReport}
    (h : ((compute config curve now e w includeGoals).run store s).outcome = .finished (.ok r)) :
    r.VerdictFits e := by
  obtain ⟨counts, goals, -, hr⟩ := compute_inv h
  exact verdictFits_of_ofCounts hr

/-- Twenty of a hundred users of the control convert, and half of a hundred of another variant. -/
def clearAnswer (variant : String) : Reply := .rows [
  [("group_0", .text "control"), ("users", .int 100), ("conversions", .int 20)],
  [("group_0", .text variant), ("users", .int 100), ("conversions", .int 50)]]

/-- What comes of an answer of the store, without goals and without a sample size. -/
def outcomeOn (e : Experiment) (answer : Reply) : Outcome ExperimentReport :=
  ((compute { minimumDetectableEffect := 0.0 } standardNormal default e ever false).run Store.script
    [answer]).outcome

theorem exists_of_shown {e : Experiment} {answer : Reply} {isSignificant : Bool}
    {winner : Option String} {message text : String}
    (h : (outcomeOn e answer).value?.map (fun r =>
      (r.isSignificant, r.winner, r.statusMessage, r.statusText)) =
        some (isSignificant, winner, message, text)) :
    ∃ r, outcomeOn e answer = .finished (.ok r) ∧ r.isSignificant = isSignificant ∧
      r.winner = winner ∧ r.statusMessage = message ∧ r.statusText = text := by
  obtain ⟨r, hr, hshown⟩ := Option.map_eq_some_iff.mp h
  simp only [Prod.mk.injEq] at hshown
  exact ⟨r, Outcome.eq_of_value? hr, hshown⟩

theorem compute_verdictFits_variant : ∃ r,
    outcomeOn checkoutExperiment (clearAnswer "variant_a") = .finished (.ok r) ∧
      r.winner = some "variant_a" ∧ r.statusMessage = "winner found" ∧
        r.statusText = "Winner found! Buy now with 100% confidence." ∧
          r.VerdictFits checkoutExperiment := by
  have hshown : ∃ r, outcomeOn checkoutExperiment (clearAnswer "variant_a") = .finished (.ok r) ∧
      r.isSignificant = true ∧ r.winner = some "variant_a" ∧ r.statusMessage = "winner found" ∧
        r.statusText = "Winner found! Buy now with 100% confidence." :=
    exists_of_shown (by decide +kernel)
  obtain ⟨r, hr, -, hwinner, hmessage, htext⟩ := hshown
  exact ⟨r, hr, hwinner, hmessage, htext, compute_verdictFits _ _ _ _ _ _ _ _ hr⟩

/-- An experiment with a variant whose id is the empty text. -/
def blankTrial : Experiment :=
  { checkoutExperiment with
    variants := [⟨"control", "Control", .float 0.5⟩, ⟨"", "Blank", .float 0.5⟩] }

/-- The result is significant and has a winner, and is shown as no difference. -/
theorem leaves_winner_unannounced : blankTrial.Accepted ∧ ∃ r,
    outcomeOn blankTrial (clearAnswer "") = .finished (.ok r) ∧ r.isSignificant = true ∧
      r.winner = some "" ∧ r.statusMessage = "no meaningful difference" ∧
        r.statusText = "No significant difference detected yet. Continue running the test." := by
  refine ⟨?_, exists_of_shown (by decide +kernel)⟩
  rw [Experiment.Accepted]
  decide +kernel

end ExperimentReport

end CohortAnalytics
