import CohortAnalytics.Cache.Key
import CohortAnalytics.Proofs.Json.Canonical

/-!
Keys of cached results are uniquely readable: the quoted site and kind end where their quotes end,
the name of a parameter at its equals sign and its value at the colon that no value leaves open.
-/

namespace CohortAnalytics

namespace CacheKey

/-- What a cache key takes: parameters under distinct names, as identifiers without an equals
sign, whose values are well formed at every depth. -/
structure IsParams (params : List (String × Json)) : Prop where
  names : (Entries.names params).Nodup
  plain : ∀ p ∈ params, '=' ∉ p.1.toList
  values : ∀ p ∈ params, p.2.WellFormed

theorem intercalate_colon (first : List Char) (rest : List (List Char)) :
    [':'].intercalate (first :: rest) = first ++ rest.flatMap fun part => ':' :: part := by
  induction rest generalizing first with
  | nil => simp [List.intercalate]
  | cons part rest ih =>
    rw [List.intercalate_cons_cons, ih, List.flatMap_cons]
    simp

def paramsText (params : List (String × Json)) : List Char :=
  params.flatMap fun p => ':' :: (p.1.toList ++ '=' :: Json.write {} p.2)

/-- The parameters that count, in order of their names, with canonical values. -/
def canonicalParams (params : List (String × Json)) : List (String × Json) :=
  Json.sortMembers (Json.sortedMembers (present params))

theorem canonicalParams_eq_map (params : List (String × Json)) :
    canonicalParams params = (Json.sortMembers (present params)).map fun p => (p.1, p.2.sorted) := by
  rw [canonicalParams, Json.sortedMembers_eq_map, Json.sortMembers, Json.sortMembers,
    List.map_mergeSort]
  intro a _ b _
  rfl

theorem cacheKey?_text {site : String} (hsite : site ≠ "") (kind : String)
    (params : List (String × Json)) : cacheKey? site kind params = some (String.ofList
      (Json.quote site ++ ':' :: (Json.quote kind ++ paramsText (canonicalParams params)))) := by
  rw [cacheKey?, if_neg hsite, parts, intercalate_colon, List.flatMap_cons, List.cons_append,
    canonicalParams_eq_map, paramsText, List.flatMap_map, List.flatMap_map]
  rfl

theorem mem_present {params : List (String × Json)} {p : String × Json} (h : p ∈ present params) :
    p ∈ params := (List.mem_filter.mp h).1

theorem names_present {params : List (String × Json)} (h : IsParams params) :
    (Entries.names (present params)).Nodup :=
  h.names.sublist (List.filter_sublist.map _)

theorem plain_canonicalParams {params : List (String × Json)} (h : IsParams params) :
    ∀ p ∈ canonicalParams params, '=' ∉ p.1.toList := by
  intro p hp
  rw [canonicalParams_eq_map] at hp
  obtain ⟨q, hq, rfl⟩ := List.mem_map.mp hp
  exact h.plain q (mem_present ((Json.sortMembers_perm _).mem_iff.mp hq))

theorem stops_paramsText (params : List (String × Json)) : Json.Stops (paramsText params) := by
  cases params with
  | nil => exact Json.stops_nil
  | cons p rest => exact Json.stops_cons (by decide) _

theorem paramsText_inj {ps qs : List (String × Json)} (hp : ∀ p ∈ ps, '=' ∉ p.1.toList)
    (hq : ∀ q ∈ qs, '=' ∉ q.1.toList) (h : paramsText ps = paramsText qs) : ps = qs := by
  induction ps generalizing qs with
  | nil =>
    cases qs with
    | nil => rfl
    | cons q qs => exact absurd h (List.cons_ne_nil _ _).symm
  | cons p ps ih =>
    cases qs with
    | nil => exact absurd h (List.cons_ne_nil _ _)
    | cons q qs =>
      obtain ⟨n, v⟩ := p
      obtain ⟨n', w⟩ := q
      simp only [paramsText, List.flatMap_cons, List.cons_append, List.append_assoc, List.cons.injEq,
        true_and] at h
      obtain ⟨hname, hvalue⟩ := append_cons_inj (hp (n, v) (by simp)) (hq (n', w) (by simp)) h
      obtain ⟨rfl, hrest⟩ := Json.write_append_inj {} v w (stops_paramsText ps)
        (stops_paramsText qs) hvalue
      obtain rfl := String.toList_inj.mp hname
      rw [ih (fun p hp' => hp p (List.mem_cons_of_mem _ hp'))
        (fun q hq' => hq q (List.mem_cons_of_mem _ hq')) hrest]

/-- The site, the kind and the canonical parameters can be read off a key. -/
theorem key_inj {s t k l : String} {ps qs : List (String × Json)} (hs : s ≠ "") (ht : t ≠ "")
    (hp : IsParams ps) (hq : IsParams qs) (h : cacheKey? s k ps = cacheKey? t l qs) :
    s = t ∧ k = l ∧ canonicalParams ps = canonicalParams qs := by
  rw [cacheKey?_text hs, cacheKey?_text ht, Option.some.injEq, String.ofList_inj] at h
  obtain ⟨hsite, hrest⟩ := Json.quote_append_inj h
  obtain ⟨hkind, hparams⟩ := Json.quote_append_inj (List.cons.inj hrest).2
  exact ⟨hsite, hkind, paramsText_inj (plain_canonicalParams hp) (plain_canonicalParams hq) hparams⟩

theorem find?_present {ps qs : List (String × Json)} (hp : IsParams ps) (hq : IsParams qs)
    (h : canonicalParams ps = canonicalParams qs) (name : String) :
    (Entries.find? name (present ps)).map Json.sorted =
      (Entries.find? name (present qs)).map Json.sorted := by
  rw [canonicalParams, canonicalParams, Json.sortMembers_eq_iff
    (by rw [Json.names_sortedMembers]; exact names_present hp)
    (by rw [Json.names_sortedMembers]; exact names_present hq)] at h
  have hname := h name
  rw [Json.sortedMembers_eq_map, Json.sortedMembers_eq_map] at hname
  rwa [Entries.find?_map, Entries.find?_map] at hname

theorem site_ne_empty {site kind key : String} {params : List (String × Json)}
    (h : cacheKey? site kind params = some key) : site ≠ "" := by
  unfold cacheKey? at h
  split_ifs at h with hsite
  exact hsite

end CacheKey

end CohortAnalytics
