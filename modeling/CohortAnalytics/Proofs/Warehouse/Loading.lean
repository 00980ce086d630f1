import CohortAnalytics.Proofs.Entries
import CohortAnalytics.Proofs.Warehouse.Rows

/-!
Batches on their way into the table. A batch adds its events whose ids are new, of those under one
id the first, up to one that cannot be stored; what an earlier batch has left behind is not added
again.
-/

namespace CohortAnalytics

namespace LooseEvent

/-- The events of a batch with new ids, of those under one id the first. -/
def fresh (seen : List (Option String)) : List LooseEvent → List LooseEvent
  | [] => []
  | e :: rest => if key e ∈ seen then fresh seen rest else e :: fresh (key e :: seen) rest

section Fresh

variable {seen seen' : List (Option String)} {e : LooseEvent} {batch more : List LooseEvent}

theorem fresh_cons_of_mem (h : key e ∈ seen) (batch : List LooseEvent) :
    fresh seen (e :: batch) = fresh seen batch := if_pos h

theorem fresh_cons_of_not_mem (h : key e ∉ seen) (batch : List LooseEvent) :
    fresh seen (e :: batch) = e :: fresh (key e :: seen) batch := if_neg h

theorem fresh_sublist (seen : List (Option String)) (batch : List LooseEvent) :
    (fresh seen batch).Sublist batch := by
  induction batch generalizing seen with
  | nil => exact List.Sublist.slnil
  | cons e batch ih =>
    by_cases he : key e ∈ seen
    · rw [fresh_cons_of_mem he]
      exact (ih _).cons _
    · rw [fresh_cons_of_not_mem he]
      exact (ih _).cons_cons _

end Fresh

end LooseEvent

namespace EventTable

open LooseEvent

variable {seen : List (Option String)} {s : IdSet} {batch : List LooseEvent} {t : EventTable}

/-- A batch that passes the first check queues its new events and counts the others. -/
theorem pending_of_screen (hs : ∀ id, s.contains id = true ↔ id ∈ seen) {a : Admission}
    (h : screen s batch = .ok a) :
    List.Forall₂ (fun e p => pending e = .ok p) (fresh seen batch) a.pending ∧
      a.pending.length + a.duplicates = batch.length := by
  induction batch generalizing seen s a with
  | nil =>
    obtain rfl := Except.ok.inj h
    exact ⟨.nil, rfl⟩
  | cons e batch ih =>
    rw [screen] at h
    obtain ⟨id, hid, h⟩ := bind_ok h
    have hkey := key_of_id hid
    split_ifs at h with hseen
    · obtain ⟨b, hb, h⟩ := bind_ok h
      obtain rfl := Except.ok.inj h
      obtain ⟨hpending, hlength⟩ := ih hs hb
      rw [fresh_cons_of_mem (hkey ▸ (hs id).mp hseen), List.length_cons]
      exact ⟨hpending, by rw [← hlength, Nat.add_assoc]⟩
    · obtain ⟨p, hp, h⟩ := bind_ok h
      obtain ⟨b, hb, h⟩ := bind_ok h
      obtain rfl := Except.ok.inj h
      have hs' : ∀ id', (s.insert id).contains id' = true ↔ id' ∈ key e :: seen := by
        intro id'
        rw [Std.HashSet.contains_insert, Bool.or_eq_true, beq_iff_eq, hs, List.mem_cons, hkey,
          eq_comm]
      obtain ⟨hpending, hlength⟩ := ih hs' hb
      have hqueued : pending e = .ok p := by
        rw [pending, hid]
        exact hp
      rw [fresh_cons_of_not_mem fun hmem => hseen ((hs id).mpr (hkey ▸ hmem))]
      refine ⟨.cons hqueued hpending, ?_⟩
      dsimp only
      rw [List.length_cons, List.length_cons, ← hlength, Nat.add_right_comm]

theorem error_of_screen {err : LoadError} (h : screen s batch = .error err) :
    ∃ e ∈ batch, pending e = .error err := by
  induction batch generalizing s with
  | nil => cases h
  | cons e batch ih =>
    rw [screen] at h
    rcases bind_error_iff.mp h with hid | ⟨id, hid, h⟩
    · exact ⟨e, by simp, bind_error_iff.mpr (.inl hid)⟩
    split_ifs at h with hseen
    · rcases bind_error_iff.mp h with h | ⟨b, -, h⟩
      · obtain ⟨d, hd, herr⟩ := ih h
        exact ⟨d, List.mem_cons_of_mem _ hd, herr⟩
      · cases h
    · rcases bind_error_iff.mp h with hp | ⟨p, -, h⟩
      · exact ⟨e, by simp, bind_error_iff.mpr (.inr ⟨id, hid, hp⟩)⟩
      rcases bind_error_iff.mp h with h | ⟨b, -, h⟩
      · obtain ⟨d, hd, herr⟩ := ih h
        exact ⟨d, List.mem_cons_of_mem _ hd, herr⟩
      · cases h

/-- Queued events become rows up to the first that does not. -/
theorem storeAll_spec {es : List LooseEvent} {ps : List PendingEvent}
    (h : List.Forall₂ (fun e p => pending e = .ok p) es ps) :
    ∃ done rest, es = done ++ rest ∧ Rows done (storeAll ps).1 ∧
      ((storeAll ps).2 = none ∧ rest = [] ∨
        ∃ err e others, (storeAll ps).2 = some err ∧ rest = e :: others ∧
          stored e = .error err) := by
  induction h with
  | nil => exact ⟨[], [], rfl, .nil, .inl ⟨rfl, rfl⟩⟩
  | cons hp _ ih =>
    rename_i e p es ps _
    have hstored : stored e = p.store := by
      rw [stored, hp]
      rfl
    rw [storeAll]
    cases hrow : p.store with
    | error err =>
      exact ⟨[], e :: es, rfl, .nil, .inr ⟨err, e, es, rfl, rfl, hstored.trans hrow⟩⟩
    | ok row =>
      obtain ⟨done, rest, rfl, hdone, hrest⟩ := ih
      exact ⟨e :: done, rest, rfl, .cons (hstored.trans hrow) hdone, hrest⟩

def keys (t : EventTable) : List (Option String) := t.ids.map some

/-- What a load may come to. -/
inductive Loading (t : EventTable) (batch : List LooseEvent) :
    EventTable × Except LoadError (ℕ × ℕ) → Prop
  /-- every new event becomes a row -/
  | whole {rows : List StoredEvent} {duplicates : ℕ}
      (hrows : Rows (fresh t.keys batch) rows) (hcount : rows.length + duplicates = batch.length) :
      Loading t batch (⟨t.rows ++ rows⟩, .ok (rows.length, duplicates))
  /-- the new events before one that cannot be stored become rows -/
  | partly {done rest : List LooseEvent} {e : LooseEvent} {rows : List StoredEvent} {err : LoadError}
      (hfresh : fresh t.keys batch = done ++ e :: rest) (hrows : Rows done rows)
      (herr : stored e = .error err) : Loading t batch (⟨t.rows ++ rows⟩, .error err)
  /-- an event does not pass the first check -/
  | refused {e : LooseEvent} {err : LoadError} (he : e ∈ batch) (herr : pending e = .error err) :
      Loading t batch (t, .error err)

theorem loading_insert (t : EventTable) (batch : List LooseEvent) :
    t.Loading batch (t.insert batch) := by
  have hkeys : ∀ id, (Std.HashSet.ofList (t.ids.map some)).contains id = true ↔ id ∈ t.keys := by
    intro id
    rw [Std.HashSet.contains_ofList, List.contains_iff_mem, keys]
  rw [insert]
  cases hscreen : screen (.ofList (t.ids.map some)) batch with
  | error err =>
    obtain ⟨e, he, herr⟩ := error_of_screen hscreen
    exact .refused he herr
  | ok a =>
    obtain ⟨hpending, hcount⟩ := pending_of_screen hkeys hscreen
    obtain ⟨done, rest, hfresh, hrows, hend⟩ := storeAll_spec hpending
    dsimp only
    rcases hend with ⟨hnone, rfl⟩ | ⟨err, e, others, hsome, rfl, herr⟩
    · rw [hnone, List.append_nil] at *
      rw [← hfresh] at hrows
      have hlength : (storeAll a.pending).1.length = a.pending.length := by
        rw [← hrows.length_eq, hpending.length_eq]
      rw [← hlength] at hcount ⊢
      exact .whole hrows hcount
    · rw [hsome]
      exact .partly hfresh hrows herr

variable {rows : List StoredEvent}

/-- A batch of events that can all be stored adds the new ones. -/
theorem insert_of_stored (t : EventTable) (h : ∀ e ∈ batch, ∃ row, stored e = .ok row) :
    ∃ rows duplicates, Rows (fresh t.keys batch) rows ∧ rows.length + duplicates = batch.length ∧
      t.insert batch = (⟨t.rows ++ rows⟩, .ok (rows.length, duplicates)) := by
  have hload := t.loading_insert batch
  generalize t.insert batch = out at hload
  cases hload with
  | whole hrows hcount => exact ⟨_, _, hrows, hcount, rfl⟩
  | @partly done rest e _ _ hfresh _ herr =>
    have he : e ∈ batch := (fresh_sublist t.keys batch).subset (by simp [hfresh])
    obtain ⟨row, hrow⟩ := h e he
    rw [hrow] at herr
    cases herr
  | refused he herr =>
    obtain ⟨row, hrow⟩ := h _ he
    rw [stored, herr] at hrow
    cases hrow

section Interrupted

variable {before after : List LooseEvent} {e whole : LooseEvent}

end Interrupted

/-- What a load leaves behind: the rows that were there, and after them rows of the batch. -/
theorem rows_insert (t : EventTable) (batch : List LooseEvent) :
    ∃ rows, (t.insert batch).1 = ⟨t.rows ++ rows⟩ ∧
      ∀ row ∈ rows, ∃ e ∈ batch, stored e = .ok row := by
  have hsource {es : List LooseEvent} {rows : List StoredEvent} (h : Rows es rows)
      (hsub : es ⊆ batch) : ∀ row ∈ rows, ∃ e ∈ batch, stored e = .ok row := by
    intro row hrow
    obtain ⟨e, he, hstored⟩ := exists_of_forall₂ h hrow
    exact ⟨e, hsub he, hstored⟩
  have hfresh := (fresh_sublist t.keys batch).subset
  have hload := t.loading_insert batch
  generalize t.insert batch = out at hload
  cases hload with
  | whole hrows _ => exact ⟨_, rfl, hsource hrows hfresh⟩
  | partly hdone hrows _ =>
    rw [hdone] at hfresh
    exact ⟨_, rfl, hsource hrows fun _ he => hfresh (List.mem_append_left _ he)⟩
  | refused _ _ => exact ⟨[], by rw [List.append_nil], by simp⟩

/-- The table after loads into an empty one, each of which may fail. -/
def loaded (loads : List (List LooseEvent)) : EventTable :=
  loads.foldl (fun t batch => (t.insert batch).1) {}

theorem source_of_loaded {loads : List (List LooseEvent)} {row : StoredEvent}
    (h : row ∈ (loaded loads).rows) : ∃ batch ∈ loads, ∃ e ∈ batch, stored e = .ok row := by
  induction loads using List.reverseRecOn with
  | nil => cases h
  | append_singleton loads batch ih =>
    rw [loaded, List.foldl_append] at h
    obtain ⟨rows, hrows, hsource⟩ := rows_insert (loaded loads) batch
    change row ∈ ((loaded loads).insert batch).1.rows at h
    rw [hrows, List.mem_append] at h
    rcases h with hold | hnew
    · obtain ⟨earlier, hearlier, he⟩ := ih hold
      exact ⟨earlier, List.mem_append_left _ hearlier, he⟩
    · exact ⟨batch, by simp, hsource row hnew⟩

end EventTable

end CohortAnalytics
