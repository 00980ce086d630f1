import CohortAnalytics.Proofs.Cache.History
import CohortAnalytics.Proofs.Cache.Key

/-!
Entries by their sites. A key starts with the site it was built for and with no other, whatever texts
the sites are; so dropping a site takes its entries away and nothing else.
-/

namespace CohortAnalytics

/-- A key of this site, of some kind and with some parameters. -/
def CacheKey.BuiltFor (site key : String) : Prop :=
  ∃ kind params, cacheKey? site kind params = some key

namespace CacheKey

variable {site owner key : String}

theorem BuiltFor.isOf_iff (h : BuiltFor owner key) (site : String) :
    isOf site key = true ↔ site = owner := by
  obtain ⟨kind, params, hkey⟩ := h
  rw [cacheKey?_text (site_ne_empty hkey)] at hkey
  obtain rfl := Option.some.inj hkey
  rw [isOf, siteStart, String.toList_ofList, List.isPrefixOf_iff_prefix]
  constructor
  · rintro ⟨rest, hrest⟩
    rw [List.append_assoc] at hrest
    exact (Json.quote_append_inj hrest).1
  · rintro rfl
    exact ⟨Json.quote kind ++ paramsText (canonicalParams params), by simp⟩

theorem BuiltFor.unique (h : BuiltFor site key) (h' : BuiltFor owner key) : site = owner :=
  (h'.isOf_iff site).mp ((h.isOf_iff site).mpr rfl)

theorem BuiltFor.isOf_iff_builtFor (h : BuiltFor owner key) :
    isOf site key = true ↔ BuiltFor site key := by
  rw [h.isOf_iff site]
  constructor
  · rintro rfl
    exact h
  · exact fun hsite => hsite.unique h

end CacheKey

namespace Cache

variable {τ V : Type}

def HasBuiltKeys (c : Cache τ V) : Prop :=
  ∀ e ∈ c.entries, ∃ owner, CacheKey.BuiltFor owner e.1

section Runs

variable [Clock τ] {limits : CacheLimits τ} {now : τ} {c : Cache τ V}

theorem requested_of_mem_entries {steps : List (CacheStep τ V)}
    (h : ({ limits, now } : Cache τ V).run? steps = some c) :
    ∀ e ∈ c.entries, ∃ ttl, .request e.1 ttl ∈ steps := by
  refine run_induction (P := fun steps c => ∀ e ∈ c.entries, ∃ ttl, .request e.1 ttl ∈ steps)
    (fun e he => absurd he List.not_mem_nil) (fun taken b s d hrun hs ih e he => ?_) h
  have hwritten := (entries_sublist hs).subset he
  unfold written at hwritten
  cases hcommit : b.committed? s with
  | none =>
    rw [hcommit] at hwritten
    obtain ⟨ttl, hmem⟩ := ih e hwritten
    exact ⟨ttl, List.mem_append_left _ hmem⟩
  | some m =>
    rw [hcommit] at hwritten
    rcases Entries.mem_put hwritten with rfl | hbefore
    · -- A flight stores under the key that it was asked for under.
      obtain ⟨i, f, v, stamp, -, hf, -, rfl⟩ := committed?_cases hcommit
      obtain ⟨before, _, after, -, rfl, -, ttl, rfl, -⟩ :=
        (flight_recorded (sound_initial limits now) rfl hrun hf).begun
      exact ⟨ttl, by simp⟩
    · obtain ⟨ttl, hmem⟩ := ih e hbefore
      exact ⟨ttl, List.mem_append_left _ hmem⟩

/-- A cache whose callers build the keys they ask for has no other keys. -/
theorem hasBuiltKeys_run {steps : List (CacheStep τ V)}
    (h : ({ limits, now } : Cache τ V).run? steps = some c)
    (hbuilt : ∀ key ttl, .request key ttl ∈ steps → ∃ owner, CacheKey.BuiltFor owner key) :
    c.HasBuiltKeys := by
  intro e he
  obtain ⟨ttl, hmem⟩ := requested_of_mem_entries h e he
  exact hbuilt e.1 ttl hmem

end Runs

open Classical in
/-- Dropping a site takes away the entries whose keys were built for it, says how many they were, and
leaves everything else as it was: the other sites keep all of theirs. -/
theorem invalidateSite_exactly {c : Cache τ V} (h : c.HasBuiltKeys) (site : String) :
    c.invalidateSite site =
        (c.entries.countP fun e => CacheKey.BuiltFor site e.1,
          { c with entries := c.entries.filter fun e => ¬CacheKey.BuiltFor site e.1 }) ∧
      ∀ other ≠ site,
        (c.invalidateSite site).2.entries.filter (fun e => CacheKey.BuiltFor other e.1) =
          c.entries.filter fun e => CacheKey.BuiltFor other e.1 := by
  have hdropped : c.entries.dropSite site =
      c.entries.filter fun e => ¬CacheKey.BuiltFor site e.1 := by
    apply List.filter_congr
    intro e he
    obtain ⟨owner, howner⟩ := h e he
    rw [← howner.isOf_iff_builtFor]
    simp
  have hcount : c.entries.length - (c.entries.dropSite site).length =
      c.entries.countP fun e => CacheKey.BuiltFor site e.1 := by
    have hsplit := c.entries.length_eq_countP_add_countP fun e => CacheKey.BuiltFor site e.1
    rw [hdropped, ← List.countP_eq_length_filter]
    simp only [decide_not, decide_eq_true_eq] at hsplit ⊢
    omega
  refine ⟨?_, fun other hother => ?_⟩
  · rw [invalidateSite, hcount, hdropped]
  · rw [show (c.invalidateSite site).2.entries = c.entries.dropSite site from rfl, hdropped,
      List.filter_filter]
    apply List.filter_congr
    intro e _
    rw [Bool.eq_iff_iff]
    simp only [Bool.and_eq_true, decide_eq_true_eq, and_iff_left_iff_imp]
    exact fun hkey hsite => hother (hkey.unique hsite)

/-- The other sites begin with the site's own id, and go on with a letter, a colon, a quote or a
backslash. -/
theorem invalidateSite_exactly_of_prefix :
    ∃ own longer colon quote slash other : String,
      cacheKey? "a" "cohort" [] = some own ∧ cacheKey? "ab" "cohort" [] = some longer ∧
      cacheKey? "a:" "cohort" [] = some colon ∧ cacheKey? "a\":" "cohort" [] = some quote ∧
      cacheKey? "a\\" "cohort" [] = some slash ∧ cacheKey? "a" "k" [("x", .int 1)] = some other ∧
      ∃ c : Cache Number String,
        Entries.names c.entries = [own, longer, colon, quote, slash, other] ∧ c.HasBuiltKeys ∧
        (c.invalidateSite "a").1 = 2 ∧
        Entries.names (c.invalidateSite "a").2.entries = [longer, colon, quote, slash] := by
  have hkey (site : String) (hsite : site ≠ "") (kind : String) (params : List (String × Json)) :
      ∃ key, cacheKey? site kind params = some key := ⟨_, CacheKey.cacheKey?_text hsite kind params⟩
  obtain ⟨own, hown⟩ := hkey "a" (by decide) "cohort" []
  obtain ⟨longer, hlonger⟩ := hkey "ab" (by decide) "cohort" []
  obtain ⟨colon, hcolon⟩ := hkey "a:" (by decide) "cohort" []
  obtain ⟨quote, hquote⟩ := hkey "a\":" (by decide) "cohort" []
  obtain ⟨slash, hslash⟩ := hkey "a\\" (by decide) "cohort" []
  obtain ⟨other, hother⟩ := hkey "a" (by decide) "k" [("x", .int 1)]
  let c : Cache Number String :=
    { limits := ⟨8, .int 60, by decide⟩
      now := .int 0
      entries := [own, longer, colon, quote, slash, other].map fun key => (key, ⟨"v", .int 0, .int 60⟩) }
  have hc : c.HasBuiltKeys := by
    intro e he
    obtain ⟨key, hmem, rfl⟩ := List.mem_map.mp he
    simp only [List.mem_cons, List.not_mem_nil, or_false] at hmem
    rcases hmem with rfl | rfl | rfl | rfl | rfl | rfl
    exacts [⟨_, _, _, hown⟩, ⟨_, _, _, hlonger⟩, ⟨_, _, _, hcolon⟩, ⟨_, _, _, hquote⟩,
      ⟨_, _, _, hslash⟩, ⟨_, _, _, hother⟩]
  have hnot {site key kind : String} {params : List (String × Json)} (hsite : site ≠ "a")
      (h : cacheKey? site kind params = some key) : ¬CacheKey.BuiltFor "a" key :=
    fun hbuilt => hsite (CacheKey.BuiltFor.unique ⟨kind, params, h⟩ hbuilt)
  have hyes : CacheKey.BuiltFor "a" own := ⟨_, _, hown⟩
  have hyes' : CacheKey.BuiltFor "a" other := ⟨_, _, hother⟩
  refine ⟨own, longer, colon, quote, slash, other, hown, hlonger, hcolon, hquote, hslash, hother, c,
    rfl, hc, ?_⟩
  rw [(invalidateSite_exactly hc "a").1]
  simp [c, Entries.names, hyes, hyes', hnot (by decide) hlonger, hnot (by decide) hcolon,
    hnot (by decide) hquote, hnot (by decide) hslash]

end Cache

end CohortAnalytics
