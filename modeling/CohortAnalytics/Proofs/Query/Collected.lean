import CohortAnalytics.Proofs.Query.Sent
import CohortAnalytics.Proofs.Results

/-!
The rows of any answer, collected: one for each of the values they are grouped by, under the first of
those that are the same, with the numbers of one of the rows that hold it.
-/

namespace CohortAnalytics

namespace Json

/-- Adds a value that none of those seen is the same as. -/
def noted (seen : List Json) (c : Json) : List Json :=
  if seen.any (·.same c) then seen else seen ++ [c]

/-- The values that are not the same as an earlier one, in their order. -/
def firsts (cells : List Json) : List Json := cells.foldl noted []

theorem firsts_append (cells : List Json) (c : Json) :
    firsts (cells ++ [c]) = noted (firsts cells) c := List.foldl_append

theorem mem_noted {seen : List Json} {c d : Json} (h : d ∈ noted seen c) : d ∈ seen ∨ d = c := by
  rw [noted] at h
  split_ifs at h
  · exact .inl h
  · exact (List.mem_append.mp h).imp_right List.mem_singleton.mp

theorem mem_noted_of_mem {seen : List Json} {d : Json} (h : d ∈ seen) (c : Json) :
    d ∈ noted seen c := by
  rw [noted]
  split_ifs
  · exact h
  · exact List.mem_append_left _ h

theorem mem_of_mem_firsts {cells : List Json} {d : Json} (h : d ∈ firsts cells) : d ∈ cells := by
  induction cells using List.reverseRecOn with
  | nil => exact h
  | append_singleton cells c ih =>
    rw [firsts_append] at h
    rcases mem_noted h with hseen | rfl
    · exact List.mem_append_left _ (ih hseen)
    · exact List.mem_append_right _ List.mem_cons_self

theorem eq_of_same_text {v : Json} {s : String} (h : v.same (.text s) = true) : v = .text s := by
  cases v with
  | text t => simpa [same] using h
  | _ => simp [same, number?] at h

theorem text_mem_firsts {cells : List Json} {s : String} :
    .text s ∈ firsts cells ↔ .text s ∈ cells := by
  refine ⟨mem_of_mem_firsts, fun h => ?_⟩
  induction cells using List.reverseRecOn with
  | nil => exact h
  | append_singleton cells c ih =>
    rw [firsts_append]
    rcases List.mem_append.mp h with hcells | hlast
    · exact mem_noted_of_mem (ih hcells) c
    obtain rfl := List.mem_singleton.mp hlast
    -- What a text is the same as is that text, which is then already there.
    rw [noted]
    split_ifs with hsame
    · obtain ⟨v, hv, hvs⟩ := List.any_eq_true.mp hsame
      rwa [← eq_of_same_text hvs]
    · exact List.mem_append_right _ List.mem_cons_self

end Json

namespace AggregateRows

variable {key k : Json} {row r : AggregateRow}

theorem keys_put (key : Json) (row : AggregateRow) (rows : AggregateRows) :
    (rows.put key row).map Prod.fst = Json.noted (rows.map Prod.fst) key := by
  induction rows with
  | nil => rfl
  | cons e rest ih =>
    obtain ⟨k, r⟩ := e
    rw [put, Json.noted, List.map_cons, List.any_cons]
    by_cases hsame : k.same key
    · rw [if_pos hsame, hsame, Bool.true_or, if_pos rfl]
      rfl
    · rw [if_neg hsame, Bool.eq_false_iff.mpr hsame, Bool.false_or, List.map_cons, ih, Json.noted]
      split_ifs <;> rfl

theorem mem_put {rows : AggregateRows} (h : (k, r) ∈ rows.put key row) :
    (k, r) ∈ rows ∨ (k = key ∨ k.same key = true) ∧ r = row := by
  induction rows with
  | nil =>
    obtain ⟨rfl, rfl⟩ := Prod.mk.inj (List.mem_singleton.mp h)
    exact .inr ⟨.inl rfl, rfl⟩
  | cons e rest ih =>
    obtain ⟨j, other⟩ := e
    rw [put] at h
    split_ifs at h with hsame
    · rcases List.mem_cons.mp h with heq | hmem
      · obtain ⟨rfl, rfl⟩ := Prod.mk.inj heq
        exact .inr ⟨.inr hsame, rfl⟩
      · exact .inl (List.mem_cons_of_mem _ hmem)
    · rcases List.mem_cons.mp h with heq | hmem
      · exact .inl (heq ▸ List.mem_cons_self)
      · exact (ih hmem).imp_left (List.mem_cons_of_mem _)

end AggregateRows

namespace Query

variable {q : Query}

/-- The rows of an answer and what they are collected to. -/
structure Collects (q : Query) (rows : List StoreRow) (out : AggregateRows) : Prop where
  keys : out.map Prod.fst = Json.firsts (rows.map fun row => (rowKey q.grouping.width row).2)
  source {k : Json} {r : AggregateRow} (h : (k, r) ∈ out) : ∃ row ∈ rows,
    (k = (rowKey q.grouping.width row).2 ∨ k.same (rowKey q.grouping.width row).2 = true) ∧
      rowNumbers q.measures row = .ok r.values

theorem Collects.step {rows : List StoreRow} {row : StoreRow} {out out' : AggregateRows}
    (hout : q.Collects rows out) (h : collectRow q out row = .ok out') :
    q.Collects (rows ++ [row]) out' := by
  rw [collectRow] at h
  dsimp only at h
  obtain ⟨values, hvalues, h⟩ := bind_ok h
  split_ifs at h
  obtain rfl := Except.ok.inj h
  constructor
  · rw [AggregateRows.keys_put, hout.keys, List.map_append, List.map_singleton, Json.firsts_append]
  · -- A row under a value seen before takes the place of the earlier row, but not its key.
    intro k r hmem
    rcases AggregateRows.mem_put hmem with hold | ⟨hkey, rfl⟩
    · obtain ⟨source, hsource, hrow⟩ := hout.source hold
      exact ⟨source, List.mem_append_left _ hsource, hrow⟩
    · exact ⟨row, List.mem_append_right _ List.mem_cons_self, hkey, hvalues⟩

theorem Collects.run {done rows : List StoreRow} {start out : AggregateRows}
    (hstart : q.Collects done start) (h : rows.foldlM (collectRow q) start = .ok out) :
    q.Collects (done ++ rows) out := by
  induction rows generalizing done start with
  | nil =>
    obtain rfl := Except.ok.inj h
    rwa [List.append_nil]
  | cons row rest ih =>
    rw [List.foldlM_cons] at h
    obtain ⟨next, hnext, h⟩ := bind_ok h
    rw [List.append_cons]
    exact ih (hstart.step hnext) h

theorem collects_of_collectRows {rows : List StoreRow} {out : AggregateRows}
    (h : collectRows q rows = .ok out) : q.Collects rows out := by
  have hnone : q.Collects [] [] := ⟨rfl, fun h => absurd h List.not_mem_nil⟩
  exact hnone.run h

end Query

namespace Inquiry

variable {α β σ : Type} {store : Store σ} {s : σ} {b : β}

theorem after_ok {r : Except Failure α} {f : α → Inquiry β}
    (h : ((ofExcept r >>= f).run store s).outcome = .finished (.ok b)) :
    ∃ a, r = .ok a ∧ ofExcept r >>= f = f a := by
  obtain ⟨a, ha, -⟩ := run_bind_ok h
  obtain rfl := run_ofExcept_ok ha
  exact ⟨a, rfl, rfl⟩

theorem query_ok {q : Query} {f : List StoreRow → Except Failure β}
    (h : ((query q >>= fun rows => ofExcept (f rows)).run store s).outcome = .finished (.ok b)) :
    ∃ rows s', store q s = (.rows rows, s') ∧
      ((query q >>= fun rows => ofExcept (f rows)).run store s).asked = [q] ∧ f rows = .ok b := by
  change (run store (.ask q fun rows => ofExcept (f rows)) s).outcome = _ at h
  change ∃ rows s', _ ∧ (run store (.ask q fun rows => ofExcept (f rows)) s).asked = [q] ∧ _
  rw [run] at h ⊢
  cases hreply : store q s with
  | mk reply s' =>
    rw [hreply] at h
    cases reply with
    | rows rows => exact ⟨rows, s', rfl, rfl, Outcome.finished.inj h⟩
    | failure e => cases h
    | stalled => cases h

theorem asked_bind (store : Store σ) (i : Inquiry α) (f : α → Inquiry β) (s : σ) :
    (i.run store s).asked <+: ((i >>= f).run store s).asked := by
  rw [run_bind]
  generalize i.run store s = run
  obtain ⟨outcome, asked, s'⟩ := run
  cases outcome with
  | finished r =>
    cases r with
    | ok a => exact List.prefix_append _ _
    | error e => exact List.prefix_refl _
  | stalled => exact List.prefix_refl _

end Inquiry

theorem aggregate_inv {σ : Type} {store : Store σ} {s : σ} {scope : Scope} {shape : AggregateShape}
    {out : AggregateRows}
    (h : ((aggregate scope shape).run store s).outcome = .finished (.ok out)) :
    ∃ start finish rows s', AggregateShape.resolved scope = .ok (start, finish) ∧
      store (shape.query scope.site start finish scope.predicate) s = (.rows rows, s') ∧
      ((aggregate scope shape).run store s).asked =
        [shape.query scope.site start finish scope.predicate] ∧
      (shape.query scope.site start finish scope.predicate).Collects rows out := by
  rw [aggregate] at h ⊢
  obtain ⟨_, -, hchecked⟩ := Inquiry.after_ok h
  rw [hchecked] at h ⊢
  obtain ⟨⟨start, finish⟩, hbounds, hresolved⟩ := Inquiry.after_ok h
  rw [hresolved] at h ⊢
  obtain ⟨rows, s', hreply, hasked, hrows⟩ := Inquiry.query_ok h
  exact ⟨start, finish, rows, s', hbounds, hreply, hasked, Query.collects_of_collectRows hrows⟩

end CohortAnalytics
