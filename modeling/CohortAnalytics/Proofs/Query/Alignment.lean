import CohortAnalytics.Proofs.Query.Layout
import CohortAnalytics.Query.Basic
import CohortAnalytics.Query.Builder

/-!
Each placeholder of a statement stands in the fragment that brought its parameter, also where the
statement is built up call by call.
-/

namespace CohortAnalytics

namespace Statement

variable (s : Statement)

def selectLayout : Layout :=
  [Piece.plain ", "].intercalate
    (s.selectItems.map fun (name, f) => [.part f, .plain (" AS " ++ name)])

def whereLayout : Layout :=
  if s.filters.isEmpty then [.plain "1=1"]
  else [Piece.plain " AND "].intercalate (s.filters.map fun f => [.part f])

def layout : Layout :=
  .plain "SELECT " :: s.selectLayout ++ .plain (" FROM " ++ s.table ++ " WHERE ") :: s.whereLayout ++
    [.plain (s.groupText ++ s.orderText ++ s.limitText)]

/-- The texts of a statement that bring no parameters. -/
def bareTexts : List String := s.table :: s.measures.map Prod.fst ++ s.orderBy.toList

/-- All that a caller brings, with names as fragments without parameters. -/
def brought : List Fragment := s.fragments ++ s.bareTexts.map fun text => ⟨text, []⟩

theorem text_layout : s.layout.text = s.text := by
  have hselect : s.selectLayout.text = s.selectText := by
    rw [selectLayout, Layout.text_intercalate, List.map_map, selectText]
    congr 2
    funext item
    simp [Piece.text, String.append_assoc]
  have hwhere : s.whereLayout.text = s.whereText := by
    rw [whereLayout, whereText]
    split_ifs
    · rfl
    · rw [Layout.text_intercalate, List.map_map]
      congr 2
  simp only [layout, List.cons_append, Layout.text_cons, Layout.text_append, Layout.text_nil, hselect,
    hwhere, Piece.text, text, String.append_assoc, String.append_empty]

theorem map_snd_selectItems : s.selectItems.map Prod.snd = s.groups ++ s.measures.map Prod.snd := by
  have hnames : s.groups.length ≤ s.groupNames.length := by simp [groupNames]
  rw [selectItems, List.map_append, List.map_snd_zip hnames]

theorem fragments_layout : s.layout.fragments = s.fragments := by
  have hselect : s.selectLayout.fragments = s.groups ++ s.measures.map Prod.snd := by
    rw [selectLayout, Layout.fragments_intercalate, List.flatMap_map, ← map_snd_selectItems,
      List.map_eq_flatMap]
    rfl
  have hwhere : s.whereLayout.fragments = s.filters := by
    rw [whereLayout]
    split_ifs with hempty
    · rw [List.isEmpty_iff.mp hempty, Layout.fragments_plain, Layout.fragments_nil]
    · rw [Layout.fragments_intercalate, List.flatMap_map]
      exact List.flatMap_singleton' s.filters
  simp [layout, hselect, hwhere, fragments]

variable {s}

theorem isBare_groupNames : ∀ name ∈ s.groupNames, IsBare name := by
  simp only [groupNames, List.mem_map]
  rintro - ⟨i, -, rfl⟩
  exact isBare_append.mpr ⟨by decide, isBare_nat i⟩

theorem isBare_groupText : IsBare s.groupText := by
  rw [groupText]
  split_ifs
  · decide
  · refine isBare_append.mpr ⟨by decide, isBare_intercalate (by decide) ?_⟩
    simp only [List.mem_map]
    rintro - ⟨i, -, rfl⟩
    exact isBare_nat (i + 1)

theorem isBare_orderText (horder : ∀ name ∈ s.orderBy, IsBare name) : IsBare s.orderText := by
  have hdirection : IsBare (if s.descending then " DESC" else " ASC") := by
    cases s.descending <;> decide
  rw [orderText]
  generalize (if s.descending then " DESC" else " ASC") = direction at hdirection ⊢
  split_ifs
  · decide
  · refine isBare_append.mpr ⟨by decide, isBare_intercalate (by decide) ?_⟩
    intro text htext
    rcases List.mem_append.mp htext with hfirst | hname
    · obtain ⟨name, hname, rfl⟩ := Option.map_eq_some_iff.mp (Option.mem_toList.mp hfirst)
      exact isBare_append.mpr ⟨horder name hname, hdirection⟩
    · exact isBare_groupNames text hname

theorem isBare_limitText : IsBare s.limitText := by
  rw [limitText]
  split
  · exact isBare_append.mpr ⟨by decide, isBare_int _⟩
  · decide

theorem balanced_selectLayout (hfragments : ∀ f ∈ s.fragments, f.Balanced)
    (hbare : ∀ text ∈ s.bareTexts, IsBare text) : ∀ p ∈ s.selectLayout, p.Balanced := by
  intro p hp
  rcases Layout.mem_intercalate hp with rfl | ⟨l, hl, hp⟩
  · exact Piece.balanced_plain (by decide)
  obtain ⟨⟨name, f⟩, hitem, rfl⟩ := List.mem_map.mp hl
  have hname : IsBare name := by
    rcases List.mem_append.mp hitem with hgroup | hmeasure
    · exact isBare_groupNames name (List.of_mem_zip hgroup).1
    · exact hbare name (by simp [bareTexts, List.mem_map_of_mem (f := Prod.fst) hmeasure])
  have hf : f ∈ s.fragments := by
    have : f ∈ s.selectItems.map Prod.snd := List.mem_map_of_mem hitem
    rw [map_snd_selectItems] at this
    exact List.mem_append_left _ this
  simp only [List.mem_cons, List.not_mem_nil, or_false] at hp
  rcases hp with rfl | rfl
  · exact Piece.balanced_part (hfragments f hf)
  · exact Piece.balanced_plain (isBare_append.mpr ⟨by decide, hname⟩)

theorem balanced_whereLayout (hfragments : ∀ f ∈ s.fragments, f.Balanced) :
    ∀ p ∈ s.whereLayout, p.Balanced := by
  intro p hp
  rw [whereLayout] at hp
  split_ifs at hp
  · obtain rfl := List.mem_singleton.mp hp
    exact Piece.balanced_plain (by decide)
  · rcases Layout.mem_intercalate hp with rfl | ⟨l, hl, hp⟩
    · exact Piece.balanced_plain (by decide)
    · obtain ⟨f, hf, rfl⟩ := List.mem_map.mp hl
      obtain rfl := List.mem_singleton.mp hp
      exact Piece.balanced_part (hfragments f (List.mem_append_right _ hf))

theorem balanced_layout (h : ∀ f ∈ s.brought, f.Balanced) : ∀ p ∈ s.layout, p.Balanced := by
  have hfragments : ∀ f ∈ s.fragments, f.Balanced := fun f hf => h f (List.mem_append_left _ hf)
  have hbare : ∀ text ∈ s.bareTexts, IsBare text := fun text htext =>
    Fragment.balanced_bare.mp (h ⟨text, []⟩ (List.mem_append_right _ (List.mem_map_of_mem htext)))
  have htable : IsBare (" FROM " ++ s.table ++ " WHERE ") := by
    have := hbare s.table (by simp [bareTexts])
    exact isBare_append.mpr ⟨isBare_append.mpr ⟨by decide, this⟩, by decide⟩
  have horder : IsBare s.orderText := isBare_orderText fun name hname =>
    hbare name (by simp [bareTexts, Option.mem_toList.mpr hname])
  have htail : IsBare (s.groupText ++ s.orderText ++ s.limitText) :=
    isBare_append.mpr ⟨isBare_append.mpr ⟨isBare_groupText, horder⟩, isBare_limitText⟩
  simp only [layout, List.cons_append, List.mem_append, List.mem_cons, List.not_mem_nil, or_false]
  rintro p (rfl | (hp | rfl | hp) | rfl)
  · exact Piece.balanced_plain (by decide)
  · exact balanced_selectLayout hfragments hbare p hp
  · exact Piece.balanced_plain htable
  · exact balanced_whereLayout hfragments p hp
  · exact Piece.balanced_plain htail

end Statement

/-- The fragments that no caller writes. -/
inductive Fragment.IsOwn : Fragment → Prop
  | table : IsOwn ⟨"events", []⟩
  | measureName (m : Measure) : IsOwn ⟨m.name, []⟩
  | measure (m : Measure) : IsOwn m.fragment
  | group {g : Grouping} {f : Fragment} (h : f ∈ g.fragments) : IsOwn f
  | site (id : String) : IsOwn (Filter.site id).fragment
  | window (start finish : Instant) : IsOwn (Filter.window start finish).fragment
  | hasPath : IsOwn Filter.hasPath.fragment
  | takesPart (experiment : String) : IsOwn (Filter.takesPart experiment).fragment
  | typeIs (type : String) : IsOwn (Filter.typeIs type).fragment
  | ofExperiment (experiment : String) : IsOwn (Filter.payloadIs "experiment_id" experiment).fragment
  | predicate (p : Predicate) : IsOwn (Filter.predicateFragment p)

namespace Predicate

theorem isBare_column (c : Condition) : IsBare c.column := by
  have htext (column : TextColumn) : IsBare column.name := by cases column <;> decide
  have hnumber (column : NumberColumn) : IsBare column.name := by cases column <;> decide
  cases c with
  | textIs column _ => exact htext column
  | textLike column _ => exact htext column
  | number column _ => exact hnumber column
  | deadClickIs _ => exact (by decide : IsBare deadClickColumn)

theorem count_sql_condition (c : Condition) : c.sql.toList.count '?' = c.params.length := by
  have hcolumn : c.column.toList.count '?' = 0 := List.count_eq_zero.mpr (isBare_column c)
  cases c with
  | number column test =>
    cases test <;> simp [Condition.sql, Condition.withLiterals, Condition.op, NumberTest.op,
      Condition.params, NumberTest.params, hcolumn]
  | _ => simp [Condition.sql, Condition.withLiterals, Condition.op, Condition.params, hcolumn]

theorem count_sql (p : Predicate) : p.sql.toList.count '?' = p.params.length := by
  by_cases hne : p = []
  · subst hne
    rfl
  rw [sql, joined, if_neg (by simpa using hne), count_intercalate (by decide), List.map_map, params,
    List.length_flatMap]
  congr 1
  exact List.map_congr_left fun c _ => count_sql_condition c

end Predicate

instance (f : Fragment) : Decidable f.Balanced :=
  inferInstanceAs (Decidable (f.placeholders = f.params.length))

theorem Grouping.balanced (g : Grouping) : ∀ f ∈ g.fragments, f.Balanced := by
  cases g with
  | byVariant experiment =>
    have htext : "variant_ids[list_position(experiment_ids, ?)]".toList.count '?' = 1 := by
      decide +kernel
    intro f hf
    obtain rfl := List.mem_singleton.mp hf
    exact htext
  | _ => decide +kernel

theorem Measure.isBare_name (m : Measure) : IsBare m.name := by
  cases m with
  | conversions _ _ => exact (by decide : IsBare "conversions")
  | _ => decide

theorem Measure.balanced (m : Measure) : m.fragment.Balanced := by
  cases m with
  | conversions experiment goalEvent =>
    have htext : Measure.conversionsText.toList.count '?' = 3 := by decide +kernel
    exact htext
  | _ => decide +kernel

theorem Fragment.IsOwn.balanced {f : Fragment} (h : f.IsOwn) : f.Balanced := by
  cases h with
  | table => decide
  | measureName m => exact Fragment.balanced_bare.mpr m.isBare_name
  | measure m => exact m.balanced
  | @group g f h => exact g.balanced f h
  | site id =>
    have htext : "site_id = ?".toList.count '?' = 1 := by decide
    exact htext
  | window start finish =>
    have htext : "timestamp BETWEEN ? AND ?".toList.count '?' = 2 := by decide
    exact htext
  | hasPath => decide
  | takesPart experiment =>
    have htext : "list_contains(experiment_ids, ?)".toList.count '?' = 1 := by decide
    exact htext
  | typeIs type =>
    have htext : "event_type = ?".toList.count '?' = 1 := by decide
    exact htext
  | ofExperiment experiment =>
    have htext : (Filter.payloadText "experiment_id" ++ " = ?").toList.count '?' = 1 := by
      decide +kernel
    exact htext
  | predicate p =>
    rw [Fragment.Balanced, Fragment.placeholders, Filter.predicateFragment]
    simp [String.toList_append, List.count_append, Predicate.count_sql]

namespace QueryBuilder

theorem foldl_add (b : QueryBuilder) (calls : List FilterCall) :
    calls.foldl add b =
      { b with
        filters := b.filters ++ calls.map (·.fragment.text)
        params := b.params ++ calls.flatMap (·.fragment.params) } := by
  induction calls generalizing b with
  | nil => simp
  | cons call calls ih => simp [ih, add]

/-- What is built is the statement with the fragments of the calls as its filters. -/
theorem build_ofCalls (s : Statement) (calls : List FilterCall)
    (hfilters : s.filters = calls.map FilterCall.fragment) :
    (ofCalls s.table calls).build s.measures s.groups s.orderBy s.descending s.limit =
      (s.text, s.params) := by
  rw [ofCalls, foldl_add, build]
  ext1
  · apply Statement.text_congr
    simp [Statement.erased, hfilters, Fragment.erased]
  · simp [Statement.params, Statement.fragments, hfilters, List.flatMap_map]

/-- A built text has a placeholder for each parameter, and each stands in the fragment that brought
its parameter, as the same one of that fragment. -/
theorem build_aligned (s : Statement) (calls : List FilterCall)
    (hfilters : s.filters = calls.map FilterCall.fragment)
    (hbrought : ∀ f ∈ s.brought, f.IsOwn ∨ f.Balanced) :
    let built := (ofCalls s.table calls).build s.measures s.groups s.orderBy s.descending s.limit
    s.layout.text = built.1 ∧ s.layout.params = built.2 ∧
      s.layout.fragments = s.groups ++ s.measures.map Prod.snd ++ calls.map FilterCall.fragment ∧
      built.1.toList.count '?' = built.2.length ∧
      ∀ k < built.2.length, s.layout.AlignedAt k := by
  have hparams : s.layout.params = s.params := by
    rw [Layout.params_eq, s.fragments_layout]
    rfl
  have hbalanced : ∀ f ∈ s.brought, f.Balanced := fun f hf =>
    (hbrought f hf).elim Fragment.IsOwn.balanced id
  have hlayout := Statement.balanced_layout hbalanced
  rw [build_ofCalls s calls hfilters]
  refine ⟨s.text_layout, hparams, ?_, ?_, ?_⟩
  · rw [s.fragments_layout, ← hfilters]
    rfl
  · rw [← length_placesIn, ← s.text_layout, Layout.length_placesIn_text hlayout, hparams]
  · intro k hk
    rw [← hparams] at hk
    exact Layout.alignedAt_of_balanced hlayout hk

/-- A site, a window, compiled rules and a filter that a caller wrote, over a measure and a grouping
with parameters of their own. -/
theorem build_aligned_variant :
    let calls : List FilterCall := [.site "shop?", .dates default default,
      .filter ⟨"load_time > ? OR page_path = ?", [.value (.int 3), .value (.text "/?")]⟩,
      .predicate [.textLike .pagePath "%?%"]]
    let s : Statement :=
      { groups := (Grouping.byVariant "e1").fragments
        measures := [Measure.users, .conversions "e1" "buy"].map fun m => (m.name, m.fragment)
        filters := calls.map FilterCall.fragment
        orderBy := some "users"
        limit := some 5 }
    let built := (ofCalls s.table calls).build s.measures s.groups s.orderBy s.descending s.limit
    built.2.length = 10 ∧ built.1.toList.count '?' = 10 ∧ ∀ k < 10, s.layout.AlignedAt k := by
  intro calls s built
  have hbalanced : ∀ f ∈ s.brought, f.Balanced := by decide +kernel
  obtain ⟨-, -, -, hcount, haligned⟩ :=
    build_aligned s calls rfl fun f hf => .inr (hbalanced f hf)
  exact ⟨rfl, hcount, haligned⟩

end QueryBuilder

end CohortAnalytics
