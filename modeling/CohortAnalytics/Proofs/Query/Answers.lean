import CohortAnalytics.Proofs.Entries
import CohortAnalytics.Proofs.Query.Sent
import CohortAnalytics.Proofs.Query.SiteScope
import CohortAnalytics.Proofs.Service.Subjects

/-!
What an aggregate comes to on a table: one row for each group of the events it selects, in their
order, with the value of every measure on the events of the group.
-/

namespace CohortAnalytics

namespace Inquiry

variable {α β : Type} {t : EventTable} {a : α} {b : β}

/-- What the computation comes to on a table. -/
def Gives (t : EventTable) (i : Inquiry α) (a : α) : Prop :=
  (i.run Store.table t).outcome = .finished (.ok a)

theorem gives_pure (a : α) : Gives t (pure a) a := rfl

theorem gives_ofExcept {r : Except Failure α} (h : r = .ok a) : Gives t (ofExcept r) a := by
  rw [h]
  rfl

theorem gives_query {q : Query} {rows : List StoreRow} (h : q.run t = .ok rows) :
    Gives t (query q) rows := by
  rw [Gives, query, run, Store.table_ok h]
  rfl

theorem Gives.bind {i : Inquiry α} {f : α → Inquiry β} (hi : Gives t i a) (hf : Gives t (f a) b) :
    Gives t (i >>= f) b := by
  have hstate := (run_table i t).2
  rw [Gives] at hi
  rw [Gives, run_bind]
  cases hrun : i.run Store.table t with
  | mk outcome asked state =>
    rw [hrun] at hi hstate
    obtain rfl : state = t := hstate
    obtain rfl : outcome = .finished (.ok a) := hi
    exact hf

theorem Gives.bind_inv {i : Inquiry α} {f : α → Inquiry β} (h : Gives t (i >>= f) b) :
    ∃ a, Gives t i a ∧ Gives t (f a) b := by
  obtain ⟨a, ha, hb⟩ := run_bind_ok h
  rw [(run_table i t).2] at hb
  exact ⟨a, ha, hb⟩

theorem Gives.unique {i : Inquiry α} {a' : α} (h : Gives t i a) (h' : Gives t i a') : a = a' :=
  Except.ok.inj (Outcome.finished.inj (h.symm.trans h'))

theorem run_of_gives_query {q : Query} {rows : List StoreRow} (h : Gives t (query q) rows) :
    q.run t = .ok rows := by
  rw [Gives, query, run] at h
  cases hrun : q.run t with
  | ok answer =>
    rw [Store.table_ok hrun] at h
    exact congrArg Except.ok (Except.ok.inj (Outcome.finished.inj h))
  | error f =>
    rw [Store.table_error hrun] at h
    cases h

end Inquiry

namespace Query

theorem cell_same (a b : Option String) : (cell a).same (cell b) = true ↔ a = b := by
  cases a <;> cases b <;> simp [cell, Json.same, Json.number?]

theorem sameItems_cells (k l : List (Option String)) :
    Json.sameItems (k.map cell) (l.map cell) = true ↔ k = l := by
  induction k generalizing l with
  | nil => cases l <;> simp [Json.sameItems]
  | cons a k ih =>
    cases l with
    | nil => simp [Json.sameItems]
    | cons b l => simp [Json.sameItems, cell_same, ih]

/-- The key under which the row of a group is kept. -/
def keyJson : List (Option String) → Json
  | [] => .null
  | [v] => cell v
  | vs => .array (vs.map cell)

theorem keyJson_same {k l : List (Option String)} (h : k.length = l.length) :
    (keyJson k).same (keyJson l) = true ↔ k = l := by
  match k, l, h with
  | [], [], _ => simp [keyJson, Json.same]
  | [a], [b], _ => simp [keyJson, cell_same]
  | a :: b :: k, c :: d :: l, _ =>
    change (Json.array ((a :: b :: k).map cell)).same (.array ((c :: d :: l).map cell)) = true ↔ _
    rw [Json.same, sameItems_cells]

variable {q : Query} {g : Group}

/-- What the row of a group is collected to. -/
def collected (q : Query) (g : Group) : Json × AggregateRow :=
  (keyJson g.key, ⟨keyJson g.key, q.measures.map fun m => (m.name, m.value g.rows)⟩)

/-- The columns of a row have different names. -/
def HasColumns (q : Query) : Prop :=
  ((List.range q.grouping.width).map Statement.groupName ++ q.measures.map Measure.name).Nodup

/-- The columns of a group's row in their order. -/
def columns (q : Query) (g : Group) : List (String × Json) :=
  (List.range g.key.length).zipWith (fun i v => (Statement.groupName i, cell v)) g.key ++
    q.measures.map fun m => (m.name, .number (m.value g.rows))

theorem names_columns (hq : q.HasColumns) (hg : g.key.length = q.grouping.width) :
    (Entries.names (q.columns g)).Nodup := by
  have hgroups : ((List.range g.key.length).zipWith
      (fun i v => (Statement.groupName i, cell v)) g.key).map Prod.fst =
        (List.range q.grouping.width).map Statement.groupName := by
    rw [List.map_zipWith, ← hg]
    apply List.ext_getElem <;> simp
  rw [Entries.names, columns, List.map_append, hgroups, List.map_map]
  exact hq

theorem row_eq (hq : q.HasColumns) (hg : g.key.length = q.grouping.width) :
    q.row g = q.columns g := Entries.ofList_eq_self (names_columns hq hg)

theorem find?_row (hq : q.HasColumns) (hg : g.key.length = q.grouping.width) {name : String}
    {v : Json} (h : (name, v) ∈ q.columns g) : Entries.find? name (q.row g) = some v := by
  rw [row_eq hq hg]
  exact Entries.find?_of_mem (names_columns hq hg) h

theorem rowKey_row (hq : q.HasColumns) (hg : g.key.length = q.grouping.width) :
    rowKey q.grouping.width (q.row g) = (g.key.map cell, keyJson g.key) := by
  have hparts : (List.range q.grouping.width).map (fun i =>
      (Entries.find? (Statement.groupName i) (q.row g)).getD .null) = g.key.map cell := by
    apply List.ext_getElem
    · simp [hg]
    · intro i hi hi'
      have hlt : i < g.key.length := by simpa using hi'
      have hfound : Entries.find? (Statement.groupName i) (q.row g) = some (cell g.key[i]) := by
        apply find?_row hq hg
        apply List.mem_append_left
        rw [List.mem_iff_getElem]
        exact ⟨i, by simpa using hlt, by simp⟩
      simp [hfound]
  rw [rowKey, hparts]
  congr 1
  match g.key with
  | [] => rfl
  | [_] => rfl
  | _ :: _ :: _ => rfl

theorem rowNumbers_row (hq : q.HasColumns) (hg : g.key.length = q.grouping.width) :
    rowNumbers q.measures (q.row g) =
      .ok (q.measures.map fun m => (m.name, m.value g.rows)) := by
  have hfound : ∀ m ∈ q.measures,
      Entries.find? m.name (q.row g) = some (.number (m.value g.rows)) := by
    intro m hm
    exact find?_row hq hg (List.mem_append_right _ (List.mem_map_of_mem hm))
  have hnumbers (ms : List Measure) (h : ∀ m ∈ ms, m ∈ q.measures) : ms.mapM (fun m => do
      return (m.name, ← ((Entries.find? m.name (q.row g)).getD .null).toNumber)) =
        (.ok (ms.map fun m => (m.name, m.value g.rows)) : Except Failure _) := by
    induction ms with
    | nil => rfl
    | cons m ms ih =>
      rw [List.mapM_cons, hfound m (h m (by simp)), ih fun n hn => h n (List.mem_cons_of_mem _ hn)]
      rfl
  have hnames : (Entries.names (q.measures.map fun m => (m.name, m.value g.rows))).Nodup := by
    rw [Entries.names, List.map_map]
    exact (List.nodup_append.mp hq).2.1
  rw [rowNumbers, hnumbers q.measures fun _ h => h]
  exact congrArg Except.ok (Entries.ofList_eq_self hnames)

theorem collectRow_row (hq : q.HasColumns) (hg : g.key.length = q.grouping.width)
    (rows : AggregateRows) :
    collectRow q rows (q.row g) = .ok (rows.put (keyJson g.key) (q.collected g).2) := by
  have hparts : (g.key.map cell).all isKeyPart = true := by
    rw [List.all_eq_true]
    intro v hv
    obtain ⟨a, -, rfl⟩ := List.mem_map.mp hv
    cases a <;> rfl
  rw [collectRow, rowKey_row hq hg, rowNumbers_row hq hg]
  dsimp only
  simp only [bind, Except.bind, if_pos hparts]
  rfl

theorem put_of_not_same {key : Json} {rows : AggregateRows} (h : ∀ r ∈ rows, r.1.same key = false)
    (row : AggregateRow) : rows.put key row = rows ++ [(key, row)] := by
  induction rows with
  | nil => rfl
  | cons r rest ih =>
    obtain ⟨k, other⟩ := r
    have hne := h (k, other) (by simp)
    dsimp only at hne
    rw [AggregateRows.put, hne, if_neg Bool.false_ne_true,
      ih fun s hs => h s (List.mem_cons_of_mem _ hs), List.cons_append]

/-- Groups under different keys are collected to different rows. -/
theorem collectRows_rows (hq : q.HasColumns) {gs : List Group}
    (hgs : ∀ g ∈ gs, g.key.length = q.grouping.width) (hkeys : (gs.map Group.key).Nodup) :
    collectRows q (gs.map q.row) = .ok (gs.map q.collected) := by
  have hfold (done : List Group) (hdone : ∀ g ∈ done, g.key.length = q.grouping.width)
      (hall : ((done ++ gs).map Group.key).Nodup) :
      (gs.map q.row).foldlM (collectRow q) (done.map q.collected) =
        .ok ((done ++ gs).map q.collected) := by
    clear hkeys
    induction gs generalizing done with
    | nil => simp; rfl
    | cons g rest ih =>
      have hg := hgs g (by simp)
      have hnew : ∀ r ∈ done.map q.collected, r.1.same (keyJson g.key) = false := by
        intro r hr
        obtain ⟨d, hd, rfl⟩ := List.mem_map.mp hr
        rw [Bool.eq_false_iff]
        intro hsame
        have heq := (keyJson_same ((hdone d hd).trans hg.symm)).mp hsame
        rw [List.map_append, List.nodup_append] at hall
        exact hall.2.2 d.key (List.mem_map_of_mem hd) g.key (by simp) heq
      have hput : AggregateRows.put (keyJson g.key) (q.collected g).2 (done.map q.collected) =
          (done ++ [g]).map q.collected := by
        rw [put_of_not_same hnew, List.map_append]
        rfl
      rw [List.map_cons, List.foldlM_cons, collectRow_row hq hg, hput]
      have hrest := ih (fun h hh => hgs h (List.mem_cons_of_mem _ hh)) (done ++ [g])
        (by simpa [or_imp, forall_and] using ⟨hdone, hg⟩) (by simpa using hall)
      rw [List.append_assoc, List.singleton_append] at hrest
      exact hrest
  exact hfold [] (by simp) hkeys

theorem key_length (grouping : Grouping) (e : StoredEvent) :
    (grouping.key e).length = grouping.width := by
  cases grouping <;> rfl

/-- A group has the events of its key, and without grouping it has all events. -/
structure IsGroupOf (grouping : Grouping) (events : List StoredEvent) (g : Group) : Prop where
  width : g.key.length = grouping.width
  rows : g.rows = events.filter fun e => grouping.key e == g.key
  inhabited : grouping ≠ .none → ∃ e ∈ events, grouping.key e = g.key

theorem isGroupOf {grouping : Grouping} {events : List StoredEvent}
    (h : g ∈ groups grouping events) : IsGroupOf grouping events g := by
  rw [groups] at h
  split_ifs at h with hnone
  · obtain rfl := List.mem_singleton.mp h
    subst hnone
    exact ⟨rfl, by simp [Grouping.key], fun hsome => absurd rfl hsome⟩
  · obtain ⟨key, hkey, rfl⟩ := List.mem_map.mp h
    rw [List.mem_mergeSort, List.mem_eraseDups, List.mem_map] at hkey
    obtain ⟨e, he, rfl⟩ := hkey
    exact ⟨key_length grouping e, rfl, fun _ => ⟨e, he, rfl⟩⟩

theorem mem_keys_groups {grouping : Grouping} {events : List StoredEvent} (hsome : grouping ≠ .none)
    (key : List (Option String)) :
    key ∈ (groups grouping events).map Group.key ↔ ∃ e ∈ events, grouping.key e = key := by
  rw [groups, if_neg hsome, List.map_map]
  simp [Function.comp_def, List.mem_mergeSort, List.mem_eraseDups]

theorem nodup_keys_groups (grouping : Grouping) (events : List StoredEvent) :
    ((groups grouping events).map Group.key).Nodup := by
  rw [groups]
  split_ifs with hnone
  · exact List.nodup_singleton _
  · have hkeys : ((events.map fun e => grouping.key e).eraseDups.mergeSort keyLe).Nodup :=
      (List.mergeSort_perm _ _).nodup_iff.mpr (nodup_eraseDups _)
    simpa [Function.comp_def] using hkeys

theorem ordered_perm (q : Query) (gs : List Group) : (q.ordered gs).Perm gs := by
  rw [ordered]
  split
  · exact List.Perm.refl _
  · exact List.mergeSort_perm _ _

/-- The groups of the answer in their order, up to the limit. -/
def answered (q : Query) (events : List StoredEvent) : List Group :=
  match q.limit with
  | some n => (q.ordered (groups q.grouping events)).take n.toNat
  | none => q.ordered (groups q.grouping events)

theorem answer_eq (q : Query) (c : Clause) (t : EventTable) :
    q.answer c t = (q.answered (selected c t)).map q.row := by
  rw [answer, answered]
  cases q.limit with
  | none => rfl
  | some n => exact List.map_take.symm

theorem answered_sublist (q : Query) (events : List StoredEvent) :
    (q.answered events).Sublist (q.ordered (groups q.grouping events)) := by
  rw [answered]
  split
  · exact List.take_sublist _ _
  · exact List.Sublist.refl _

theorem mem_answered {events : List StoredEvent} (h : g ∈ q.answered events) :
    IsGroupOf q.grouping events g :=
  isGroupOf ((q.ordered_perm _).mem_iff.mp ((q.answered_sublist events).subset h))

theorem nodup_keys_answered (q : Query) (events : List StoredEvent) :
    ((q.answered events).map Group.key).Nodup := by
  have hordered : ((q.ordered (groups q.grouping events)).map Group.key).Nodup :=
    ((q.ordered_perm _).map Group.key).nodup_iff.mpr (nodup_keys_groups _ _)
  exact hordered.sublist ((q.answered_sublist events).map _)

end Query

namespace AggregateShape

/-- A shape that the store answers and whose answer has a row for each group. -/
structure IsSound (shape : AggregateShape) : Prop where
  filters : ∀ f ∈ shape.filters, f.IsTest
  order : shape.checkOrder = .ok ()
  limit : shape.limit.all Query.isLimit = true
  columns : ((List.range shape.grouping.width).map Statement.groupName ++
    shape.measures.map Measure.name).Nodup

theorem IsSound.hasColumns {shape : AggregateShape} (h : shape.IsSound) (site : String)
    (start finish : Instant) (p : Predicate) : (shape.query site start finish p).HasColumns :=
  h.columns

theorem aggregate_gives (scope : Scope) {shape : AggregateShape} (hshape : shape.IsSound)
    {start finish : Instant} (hwindow : scope.window.resolve? scope.now = some (start, finish))
    (t : EventTable) :
    ∃ c, Filter.joined? (shape.query scope.site start finish scope.predicate).filters = some c ∧
      (aggregate scope shape).Gives t
        (((shape.query scope.site start finish scope.predicate).answered
          (Query.selected c t)).map
            (shape.query scope.site start finish scope.predicate).collected) := by
  generalize hq : shape.query scope.site start finish scope.predicate = q
  have htests : ∀ f ∈ q.filters, f.IsTest := by
    intro f hf
    rw [← hq, query] at hf
    simp only [List.mem_append, List.mem_cons, List.not_mem_nil, or_false] at hf
    rcases hf with ((rfl | rfl) | hf) | rfl
    · exact Filter.isTest_ofTest _ _ _
    · exact Filter.isTest_ofTest _ _ _
    · exact hshape.filters f hf
    · exact ⟨_, rfl⟩
  obtain ⟨tests, hmeanings⟩ := Filter.mapM_meaning_of_isTest htests
  have hjoined : Filter.joined? q.filters = some [tests] := by
    rw [Filter.joined?, hmeanings, Option.pure_def, Option.bind_eq_bind, Option.bind_some,
      Filter.foldl_followedBy_test, List.nil_append]
  have hlimit : q.limit.all Query.isLimit = true := by
    rw [← hq]
    exact hshape.limit
  have hcolumns : q.HasColumns := hq ▸ hshape.hasColumns _ _ _ _
  refine ⟨[tests], hjoined, ?_⟩
  have hrun : q.run t = .ok ((q.answered (Query.selected [tests] t)).map q.row) := by
    rw [Query.run, hjoined]
    dsimp only
    rw [if_pos hlimit, Query.answer_eq]
  have hwidth : ∀ g ∈ q.answered (Query.selected [tests] t), g.key.length = q.grouping.width :=
    fun _ hg => (Query.mem_answered hg).width
  have hcollect := Query.collectRows_rows hcolumns hwidth (q.nodup_keys_answered _)
  have hresolved : resolved scope = .ok (start, finish) := by
    rw [resolved, hwindow]
  apply Inquiry.Gives.bind (Inquiry.gives_ofExcept hshape.order)
  apply Inquiry.Gives.bind (Inquiry.gives_ofExcept hresolved)
  dsimp only
  rw [hq]
  exact (Inquiry.gives_query hrun).bind (Inquiry.gives_ofExcept hcollect)

end AggregateShape

end CohortAnalytics
