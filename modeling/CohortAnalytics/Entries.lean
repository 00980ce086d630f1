/-!
Values under distinct names, in the order in which the names first appeared.
-/

namespace CohortAnalytics

abbrev Entries (α : Type) := List (String × α)

namespace Entries

variable {α β : Type}

def find? (name : String) : Entries α → Option α
  | [] => none
  | (n, v) :: rest => if n = name then some v else find? name rest

/-- A later value for a name takes the place of the earlier one. -/
def put (name : String) (v : α) : Entries α → Entries α
  | [] => [(name, v)]
  | (n, w) :: rest => if n = name then (n, v) :: rest else (n, w) :: put name v rest

def remove (name : String) (m : Entries α) : Entries α := m.filter fun e => e.1 ≠ name

def ofList (m : List (String × α)) : Entries α := m.foldl (fun m e => put e.1 e.2 m) []

def names (m : Entries α) : List String := m.map Prod.fst

theorem find?_put_self (name : String) (v : α) (m : Entries α) :
    find? name (put name v m) = some v := by
  induction m with
  | nil => simp [put, find?]
  | cons e rest ih =>
    obtain ⟨n, w⟩ := e
    by_cases h : n = name <;> simp [put, find?, h, ih]

theorem find?_put_of_ne {name other : String} (h : other ≠ name) (v : α) (m : Entries α) :
    find? other (put name v m) = find? other m := by
  induction m with
  | nil => simp [put, find?, h.symm]
  | cons e rest ih =>
    obtain ⟨n, w⟩ := e
    by_cases hn : n = name
    · subst hn
      simp [put, find?, h.symm]
    · by_cases ho : n = other
      · subst ho
        simp [put, find?, hn]
      · simp [put, find?, hn, ho, ih]

theorem find?_remove_self (name : String) (m : Entries α) : find? name (remove name m) = none := by
  induction m with
  | nil => rfl
  | cons e rest ih =>
    obtain ⟨n, w⟩ := e
    by_cases h : n = name
    · simpa [remove, h] using ih
    · simpa [remove, find?, h] using ih

end Entries

end CohortAnalytics
