import Newsfeed.Proofs.Counters.Tally
import Newsfeed.Proofs.Listing.Adaptive
import Newsfeed.Proofs.Listing.Selected
import Newsfeed.Proofs.Reference
import Newsfeed.Proofs.Store.Links

/-!
The numbers of the sidebar that are added up at once are those that are counted one at a time. Both
count the owner's rows that pass a test.
-/

namespace Newsfeed

open Predicate

namespace Store

variable {s : Store} {owner : Int}

theorem category_eq_zero (hlinks : Linked s) {r : Joined} (hr : s.IsRow r) :
    r.category = 0 ↔ r.feed.bind Feed.category = none := by
  unfold Joined.category
  cases hcategory : r.feed.bind Feed.category with
  | none => simp
  | some n =>
    obtain ⟨f, hf, hn⟩ := Option.bind_eq_some_iff.mp hcategory
    have hpos := hlinks.feed_category_pos ((hr.feed f).mp hf).1 hn
    simp only [Option.getD_some, reduceCtorEq, iff_false]
    omega

theorem Above.pos (hlinks : Linked s) {top : Int} {k : Nat} {id : Int}
    (h : s.Above owner top k id) : 0 < top ∧ 0 < id := by
  induction h with
  | parent hc _ hparent => exact ⟨hlinks.category_parent_pos hc hparent, hlinks.category_pos hc⟩
  | step hc _ _ _ ih => exact ⟨ih.1, hlinks.category_pos hc⟩

/-- The owner's copies have one row each. -/
theorem countRows_copies (h : Sound s) (p : Copy → Bool) :
    s.countRows owner (fun r => p r.copy) =
      (s.copies.countP fun c => decide (c.owner = owner) && p c : Nat) := by
  have hperm : ((s.joined true).map Joined.copy).Perm s.copies := by
    refine (List.perm_ext_iff_of_nodup (joined_nodup h true) h.copies.nodup.of_map).mpr fun c => ?_
    rw [List.mem_map]
    constructor
    · rintro ⟨r, hr, rfl⟩
      exact ((mem_joined h).mp hr).1.copy
    · intro hc
      obtain ⟨r, hr, rfl⟩ := exists_row h hc
      exact ⟨r, (mem_joined h).mpr ⟨hr, .inr rfl⟩, rfl⟩
  rw [countRows, ownRows, List.countP_filter, ← hperm.countP_eq, List.countP_map]
  simp only [Function.comp_def, Bool.and_comm]

end Store

/-- A request for the unread rows of a category and those below it and nothing else, in any
order. -/
structure Request.ListsBranch (r : Request) (category : Int) : Prop where
  feed : Reference.ofAddress? r.feed r.isCategory = some (.category category)
  includeChildren : r.includeChildren = true
  viewMode : r.viewMode = .unread
  search : Engine.searchText? r = none
  start : r.start = none
  sinceId : r.sinceId = none

/-- The numbers of an overview are those that are counted one at a time: of every feed, category and
label that it lists, and those of the owner are listed. Category 0 stands for the rows that are in
none. -/
structure Engine.Agrees (e : Engine) (ctx : Context) (snap : Snapshot) : Prop where
  feed : ∀ id t, (id, t) ∈ snap.feeds → e.count ctx (.id id) false true = .ok t.unread
  feed_listed : ∀ f ∈ e.store.feeds, f.owner = ctx.owner → ∃ t, (f.id, t) ∈ snap.feeds
  category : ∀ id t, (id, t) ∈ snap.categories → e.categoryUnread ctx id true = .ok t.unread
  category_listed : ∀ id, (∃ t, (id, t) ∈ snap.categories) ↔
    id = 0 ∨ ∃ c ∈ e.store.categories, c.owner = ctx.owner ∧ c.id = id
  /-- So many rows are on all pages of the category's listing together. -/
  listing : ∀ id t request, (id, t) ∈ snap.categories → request.ListsBranch id →
    0 < e.pageSize request ∧
      ∃ rows : List Headline, e.Serves ctx request rows ∧ t.unread = (rows.length : Int)
  /-- The marked rows of the category and of those below it are counted one category at a time. -/
  marked : ∀ id t, (id, t) ∈ snap.categories → ∃ branch ns : List Int, branch.Nodup ∧
    (∀ below, below ∈ branch ↔ below = id ∨
      ∃ k ≤ e.limits.categoryDepth, e.store.Above ctx.owner id k below) ∧
    branch.mapM (e.categoryMarked ctx) = .ok ns ∧ t.marked = ns.sum
  label : ∀ id n, (id, n) ∈ snap.labels →
    e.count ctx (.id (Reference.labelToFeed id)) false true = .ok n
  label_listed : ∀ l ∈ e.store.labels, l.owner = ctx.owner → ∃ n, (l.id, n) ∈ snap.labels

namespace Engine

variable {e : Engine} {ctx : Context} {request : Request}

/-- The counts that all numbers are added up from. -/
def countersOf (e : Engine) (ctx : Context) : List FeedCounter :=
  e.store.feedCounters ctx.owner (Time.hoursBefore ctx.now ctx.prefs.freshHours)

/-- The numbers of the sidebar, unless the request is told to stop. -/
def overview (e : Engine) (ctx : Context) : Snapshot where
  feeds := feedTallies (e.store.feedsOfOwner ctx.owner) (e.countersOf ctx)
  categories := categoryTallies (e.ownForest ctx) (e.countersOf ctx)
  labels := (e.store.labelCounts ctx.owner).map fun l => (l.1, (l.2 : Int))
  virtualFeeds := specialCounts (e.countersOf ctx)
  unread := FeedCounter.sumOf FeedCounter.unread (FeedCounter.live (e.countersOf ctx))

/-- The categories that a number of a category is about. -/
def categoriesIn (e : Engine) (ctx : Context) (category : Int) (includeChildren : Bool) :
    List Int :=
  if includeChildren then category :: (e.ownForest ctx).descendants category else [category]

/-- The filter for the rows that stand in them. -/
def scopeOf (e : Engine) (ctx : Context) (category : Int) (includeChildren : Bool) : Predicate :=
  if category = 0 then isUncategorized
  else if includeChildren then inBranch (e.ownForest ctx) category
  else .compare .categoryId .eq (.int category)

theorem scopeOf_plain (e : Engine) (ctx : Context) (category : Int) (includeChildren : Bool) :
    Each Plain (e.scopeOf ctx category includeChildren) ∧
      size (e.scopeOf ctx category includeChildren) ≤ 16 := by
  unfold scopeOf
  split
  · exact ⟨isUncategorized_plain, Nat.le_trans (size_all_le _) (by decide)⟩
  · split
    · exact ⟨inBranch_plain _ category, by simp [inBranch, size]⟩
    · exact ⟨each_of_plain trivial, by simp [size]⟩

section Branches

variable (h : Store.Sound e.store)
include h

theorem ownForest_distinct : (e.ownForest ctx).Distinct :=
  Store.forest_distinct h ctx.owner e.limits.categoryDepth

theorem mem_ownBranch {category id : Int} :
    id ∈ category :: (e.ownForest ctx).descendants category ↔ id = category ∨
      ∃ k ≤ e.limits.categoryDepth, e.store.Above ctx.owner category k id :=
  Store.mem_branch h ctx.owner e.limits.categoryDepth

variable (hlinks : Store.Linked e.store)
include hlinks

/-- Nothing is below number 0, and it is below nothing. -/
theorem zero_mem_categoriesIn {category : Int} {includeChildren : Bool} :
    0 ∈ e.categoriesIn ctx category includeChildren ↔ category = 0 := by
  unfold categoriesIn
  split
  · rw [mem_ownBranch h, or_iff_left, eq_comm]
    rintro ⟨k, -, habove⟩
    exact absurd (habove.pos hlinks).2 (Int.lt_irrefl 0)
  · rw [List.mem_singleton, eq_comm]

theorem mem_categoriesIn_zero {includeChildren : Bool} {id : Int} :
    id ∈ e.categoriesIn ctx 0 includeChildren ↔ id = 0 := by
  unfold categoriesIn
  split
  · rw [mem_ownBranch h, or_iff_left]
    rintro ⟨k, -, habove⟩
    exact absurd (habove.pos hlinks).1 (Int.lt_irrefl 0)
  · exact List.mem_singleton

theorem admits_scope {r : Joined} (hr : e.store.IsRow r) (hlive : r.copy.feed.isSome)
    (category : Int) (includeChildren : Bool) :
    (e.scopeOf ctx category includeChildren).admits (e.store.facts r) ↔
      r.category ∈ e.categoriesIn ctx category includeChildren := by
  have hcell : (e.store.facts r).cell .categoryId = Cell.ofInt? (r.feed.bind Feed.category) := rfl
  unfold scopeOf
  split
  next hzero =>
    rw [hzero, mem_categoriesIn_zero h hlinks, Store.category_eq_zero hlinks hr,
      uncategorized_iff h hr]
    have hfeed : r.feed ≠ none := by
      rw [ne_eq, Store.feed_eq_none h hr]
      exact Option.isSome_iff_ne_none.mp hlive
    obtain ⟨f, hf⟩ := Option.ne_none_iff_exists'.mp hfeed
    simp [hf]
  next hzero =>
    -- What stands in no category is in none of these.
    have hnone : 0 ∉ e.categoriesIn ctx category includeChildren :=
      mt (zero_mem_categoriesIn h hlinks).mp hzero
    have hmem : r.category ∈ e.categoriesIn ctx category includeChildren ↔
        ∃ n ∈ e.categoriesIn ctx category includeChildren,
          r.feed.bind Feed.category = some n := by
      unfold Joined.category
      cases r.feed.bind Feed.category with
      | none => simp [hnone]
      | some n => simp
    rw [hmem]
    unfold categoriesIn
    split
    · rw [inBranch, admits_inList hcell]
    · rw [Store.admits_category]
      simp

end Branches

theorem snapshot_tripped (htripped : ctx.token.tripped = true) :
    e.snapshot ctx = .error .cancelled := by
  simp only [snapshot, reads, Store.under, GuardedStore.feedCounters, CancelToken.guarded, htripped]
  rfl

section Counted

variable (hclear : ctx.token.tripped = false)
include hclear

theorem categoryFilter_eq (category : Int) (includeChildren : Bool) :
    e.categoryFilter ctx category includeChildren =
      .ok (e.scopeOf ctx category includeChildren) := by
  unfold categoryFilter scopeOf
  split
  · rfl
  · split
    · rw [forest_eq hclear]
      rfl
    · rfl

theorem snapshot_eq : e.snapshot ctx = .ok (e.overview ctx) := by
  simp only [snapshot, forest_eq hclear, reads, Store.under, GuardedStore.feedCounters,
    GuardedStore.feeds, GuardedStore.labelCounts, CancelToken.guarded, CancelToken.check, hclear]
  rfl

variable (h : Store.Sound e.store)
include h

/-- The number beside a reference that stands for a feed or a label. -/
theorem count_rows {n : Int} {kind : Reference} (hkind : Reference.ofId? n false = some kind)
    (hcounted : (Selection.ofReference kind false false ctx.prefs).isCounted false)
    (harchived : kind.countsArchived) {p : Joined → Bool}
    (hp : ∀ r, e.store.IsRow r →
      (((Selection.ofReference kind false false ctx.prefs).filter ctx e.limits none).admits
        (e.store.facts r) ↔ p r)) :
    e.count ctx (.id n) false true =
      .ok (e.store.countRows ctx.owner fun r => p r && r.copy.unread) := by
  have hs : Selection.ofAddress? (.id n) false false ctx.prefs =
      some (.ofReference kind false false ctx.prefs) := by
    simp only [Selection.ofAddress?, Reference.ofAddress?, hkind, Option.map_some]
  simp only [count, hs]
  rw [countSelection_counted h hclear hcounted, unreadRows, Selection.ofReference_kind, harchived,
    Store.matching_count h]
  refine congrArg Except.ok (Store.countRows_congr h fun r hr => ?_)
  rw [admits_all]
  simp only [List.all_cons, List.all_nil, Bool.and_true, Bool.true_or, Bool.true_and,
    Bool.and_eq_true]
  rw [hp r hr, Store.admits_unread]

theorem count_feed {feed : Int} (hpos : 0 < feed) :
    e.count ctx (.id feed) false true = .ok (e.store.feedTally ctx.owner feed).unread := by
  have hkind : Reference.ofId? feed false = some (.feed feed) := by
    simp [Reference.ofId?, hpos]
  refine count_rows hclear h hkind rfl rfl fun r _ => ?_
  rw [decide_eq_true_eq]
  exact Store.admits_feed feed

theorem count_label {label : Int} (hpos : 0 ≤ label) :
    e.count ctx (.id (Reference.labelToFeed label)) false true =
      .ok ((e.store.copies.countP fun c => c.owner = ctx.owner ∧ c.unread ∧
        e.store.labelings.contains (Labeling.mk label c.article) : Nat) : Int) := by
  rw [count_rows hclear h (Reference.ofId_labelToFeed hpos) rfl rfl
    fun r _ => (Store.admits_label label).trans List.contains_iff_mem.symm]
  have hrows : (e.store.countRows ctx.owner fun r =>
      e.store.labelings.contains ⟨label, r.article.id⟩ && r.copy.unread) =
        e.store.countRows ctx.owner fun r =>
          e.store.labelings.contains ⟨label, r.copy.article⟩ && r.copy.unread :=
    Store.countRows_congr h fun r hr => by rw [hr.same]
  rw [hrows, Store.countRows_copies h fun c =>
    e.store.labelings.contains ⟨label, c.article⟩ && c.unread]
  refine congrArg (fun n : Nat => Except.ok (n : Int)) (List.countP_congr fun c _ => ?_)
  simp only [Bool.and_eq_true, decide_eq_true_eq, and_comm]

/-- A number of a category is that of the rows of live feeds that stand in one of its categories. -/
theorem countCategory_rows (hlinks : Store.Linked e.store) (category : Int)
    (includeChildren : Bool) {state : Predicate} (hstate : Each Plain state ∧ size state ≤ 16)
    {p : Joined → Bool} (hp : ∀ r, state.admits (e.store.facts r) ↔ p r) :
    e.countCategory ctx category includeChildren state =
      .ok (e.store.countRows ctx.owner fun r =>
        decide (r.category ∈ e.categoriesIn ctx category includeChildren) &&
          (r.copy.feed.isSome && p r)) := by
  have hw := both_within (e.scopeOf_plain ctx category includeChildren) hstate
  rw [countCategory, hclear, categoryFilter_eq hclear]
  simp only [Bool.false_eq_true, if_false, Except.bind]
  rw [countMatching_eq h hclear hw, Store.matching_count h]
  refine congrArg Except.ok (Store.countRows_congr h fun r hr => ?_)
  rw [admits_all]
  simp only [List.all_cons, List.all_nil, Bool.and_true, Bool.false_or, Bool.and_eq_true,
    decide_eq_true_eq]
  exact (and_congr_right fun hlive =>
    and_congr (admits_scope h hlinks hr hlive category includeChildren) (hp r)).trans and_left_comm

theorem categoryMarked_rows (hlinks : Store.Linked e.store) (category : Int) :
    e.categoryMarked ctx category = .ok (e.store.countRows ctx.owner fun r =>
      decide (r.category = category) && (r.copy.feed.isSome && r.copy.marked)) := by
  have hsmall : Each Plain (.compare .marked .eq (.bool true)) ∧
      size (.compare .marked .eq (.bool true)) ≤ 16 := ⟨each_of_plain trivial, by simp [size]⟩
  rw [categoryMarked, countCategory_rows hclear h hlinks category false hsmall
    fun r => admits_switch rfl true]
  simp [categoriesIn]

/-- The rows of a listing of unread rows in a category and below it are those that are counted. -/
theorem listing_length {category : Int} (hlists : request.ListsBranch category)
    (howns : e.store.Owns ctx.owner (.category category)) :
    ∃ rows, e.Serves ctx request rows ∧
      e.categoryUnread ctx category true = .ok (rows.length : Int) := by
  have hs : Selection.ofAddress? request.feed request.isCategory request.includeChildren ctx.prefs =
      some (.ofReference (.category category) request.isCategory true ctx.prefs) := by
    rw [Selection.ofAddress?, hlists.feed, hlists.includeChildren]
    rfl
  obtain ⟨heading, hheading⟩ : ∃ heading, e.describe ctx
      (.ofReference (.category category) request.isCategory true ctx.prefs) request.isCategory =
        .ok heading := by
    rcases describe_cases hclear request.isCategory with ⟨-, hheading⟩ | ⟨hnot, -⟩
    · exact hheading
    · exact absurd howns hnot
  have hserves := serves_of_heading hlists.search hlists.start hlists.sinceId h hclear hs rfl
    hheading
  have hcount := categoryUnread_eq
    (s := .ofReference (.category category) request.isCategory true ctx.prefs) h hclear
    (Reference.category_pos hlists.feed) rfl rfl
  refine ⟨_, hserves, ?_⟩
  rw [hcount, viewRows, List.length_map, (SortOrder.sort_perm _ _).length_eq]
  simp only [viewOf, hlists.viewMode]
  rfl

end Counted

/-- What is counted of the rows that stand in a category or below it. -/
def branchTally (e : Engine) (ctx : Context) (category : Int) : Tally :=
  let counted := fun p : Joined → Bool => e.store.countRows ctx.owner fun r =>
    decide (r.category ∈ e.categoriesIn ctx category true) && (r.copy.feed.isSome && p r)
  ⟨counted fun r => r.copy.unread, counted fun r => r.copy.marked⟩

theorem categoryTally_eq (h : Store.Sound e.store) (hlinks : Store.Linked e.store) {category : Int}
    {t : Tally} (ht : (category, t) ∈ (e.overview ctx).categories) :
    t = e.branchTally ctx category := by
  have hunread := Store.counts_unread e.store ctx.owner
    (Time.hoursBefore ctx.now ctx.prefs.freshHours)
  have hmarked := Store.counts_marked e.store ctx.owner
    (Time.hoursBefore ctx.now ctx.prefs.freshHours)
  rw [overview, mem_categoryTallies] at ht
  simp only at ht
  split at ht
  next hzero =>
    rw [ht, countersOf, Store.inCategory_eq h hunread, Store.inCategory_eq h hmarked, branchTally,
      hzero]
    simp only [mem_categoriesIn_zero h hlinks]
  next hzero =>
    have hforest : (e.ownForest ctx).Distinct := ownForest_distinct h
    rw [ht.2, countersOf, Store.total_inCategory h hunread hforest,
      Store.total_inCategory h hmarked hforest]
    rfl

theorem categoryUnread_rows (hclear : ctx.token.tripped = false) (h : Store.Sound e.store)
    (hlinks : Store.Linked e.store) (category : Int) :
    e.categoryUnread ctx category true = .ok (e.branchTally ctx category).unread :=
  countCategory_rows hclear h hlinks category true isUnread_small fun _ => Store.admits_unread

/-- The marked rows of a category and those below it are counted in one of them each. -/
theorem marked_sum (h : Store.Sound e.store) (hlinks : Store.Linked e.store)
    (hclear : ctx.token.tripped = false) (category : Int) :
    ∃ branch ns : List Int, branch.Nodup ∧
      (∀ id, id ∈ branch ↔ id = category ∨
        ∃ k ≤ e.limits.categoryDepth, e.store.Above ctx.owner category k id) ∧
      branch.mapM (e.categoryMarked ctx) = .ok ns ∧
      (e.branchTally ctx category).marked = ns.sum := by
  have hnodup : (e.categoriesIn ctx category true).Nodup :=
    CategoryForest.branch_nodup (ownForest_distinct h) category
  refine ⟨e.categoriesIn ctx category true, (e.categoriesIn ctx category true).map fun id =>
    e.store.countRows ctx.owner fun r =>
      decide (r.category = id) && (r.copy.feed.isSome && r.copy.marked),
    hnodup, fun id => mem_ownBranch h, ?_, ?_⟩
  · rw [funext (categoryMarked_rows hclear h hlinks)]
    exact List.mapM_pure
  · exact (sum_countP Joined.category _ hnodup _).symm

theorem feed_pos_of_listed (h : Store.Sound e.store) (hlinks : Store.Linked e.store) {id : Int}
    (hid : id ∈ (e.store.feedsOfOwner ctx.owner).map Feed.id ∨
      some id ∈ e.store.feedKeys ctx.owner) : 0 < id := by
  rcases hid with hid | hid
  · obtain ⟨f, hf, rfl⟩ := List.mem_map.mp hid
    exact hlinks.feed_pos (List.mem_filter.mp (List.mem_mergeSort.mp hf)).1
  · obtain ⟨r, hr, hfeed⟩ := Store.mem_feedKeys.mp hid
    obtain ⟨f, hf, rfl⟩ := Store.exists_feed h ((Store.mem_ownRows h).mp hr).1.copy hfeed
    exact hlinks.feed_pos hf

/-- The categories of the owner are listed, and number 0. -/
theorem category_listed (id : Int) : (∃ t, (id, t) ∈ (e.overview ctx).categories) ↔
    id = 0 ∨ ∃ c ∈ e.store.categories, c.owner = ctx.owner ∧ c.id = id := by
  have hids : id ∈ (e.ownForest ctx).ids ↔
      ∃ c ∈ e.store.categories, c.owner = ctx.owner ∧ c.id = id := by
    simp [CategoryForest.ids, CategoryForest.mem_sorted, ownForest, CategoryForest.ofCategories,
      Store.categoriesOfOwner, List.mem_mergeSort, and_assoc]
  simp only [overview, mem_categoryTallies, hids]
  by_cases hzero : id = 0 <;> simp [hzero]

theorem mem_labelCounts {s : Store} {owner id : Int} {n : Nat} : (id, n) ∈ s.labelCounts owner ↔
    (∃ l ∈ s.labels, l.owner = owner ∧ l.id = id) ∧ n = s.copies.countP fun c =>
      c.owner = owner ∧ c.unread ∧ s.labelings.contains (Labeling.mk id c.article) := by
  simp only [Store.labelCounts, List.mem_map, List.mem_mergeSort, List.mem_filter,
    decide_eq_true_eq, Prod.mk.injEq]
  constructor
  · rintro ⟨l, ⟨hl, howner⟩, rfl, rfl⟩
    exact ⟨⟨l, hl, howner, rfl⟩, rfl⟩
  · rintro ⟨⟨l, hl, howner, rfl⟩, rfl⟩
    exact ⟨l, ⟨hl, howner⟩, rfl, rfl⟩

theorem overview_agrees (h : Store.Sound e.store) (hlinks : Store.Linked e.store)
    (hclear : ctx.token.tripped = false) : e.Agrees ctx (e.overview ctx) := by
  constructor
  case feed =>
    intro id t ht
    obtain ⟨hid, rfl⟩ := (Store.mem_feedTallies _ _ _).mp ht
    exact count_feed hclear h (feed_pos_of_listed h hlinks hid)
  case feed_listed =>
    intro f hf howner
    have hfeeds : f ∈ e.store.feedsOfOwner ctx.owner :=
      List.mem_mergeSort.mpr (List.mem_filter.mpr ⟨hf, by simpa using howner⟩)
    exact ⟨_, (Store.mem_feedTallies _ _ _).mpr ⟨.inl (List.mem_map_of_mem hfeeds), rfl⟩⟩
  case category =>
    intro id t ht
    rw [categoryTally_eq h hlinks ht]
    exact categoryUnread_rows hclear h hlinks id
  case category_listed => exact category_listed
  case listing =>
    intro id t request ht hlists
    have howns : e.store.Owns ctx.owner (.category id) := by
      rcases (category_listed id).mp ⟨t, ht⟩ with rfl | ⟨c, hc, howner, hid⟩
      · exact absurd (Reference.category_pos hlists.feed) (Int.lt_irrefl 0)
      · exact ⟨c, hc, hid, howner⟩
    obtain ⟨rows, hserves, hlength⟩ := listing_length hclear h hlists howns
    rw [categoryUnread_rows hclear h hlinks, ← categoryTally_eq h hlinks ht] at hlength
    exact ⟨e.pageSize_pos request, rows, hserves, Except.ok.inj hlength⟩
  case marked =>
    intro id t ht
    rw [categoryTally_eq h hlinks ht]
    exact marked_sum h hlinks hclear id
  case label =>
    intro id n hn
    obtain ⟨⟨id, n⟩, hmem, hentry⟩ := List.mem_map.mp hn
    obtain ⟨rfl, rfl⟩ := Prod.mk.inj hentry
    obtain ⟨⟨l, hl, -, rfl⟩, rfl⟩ := mem_labelCounts.mp hmem
    exact count_label hclear h (Int.le_of_lt (hlinks.label_pos hl))
  case label_listed =>
    intro l hl howner
    exact ⟨_, List.mem_map_of_mem (mem_labelCounts.mpr ⟨⟨l, hl, howner, rfl⟩, rfl⟩)⟩

/-- The overview of the sidebar agrees with the numbers that are counted one at a time. -/
theorem snapshot_agrees (e : Engine) (ctx : Context) (hreach : e.store.Reachable) :
    (ctx.token.tripped = true ∧ e.snapshot ctx = .error .cancelled) ∨
      ∃ snap, e.snapshot ctx = .ok snap ∧ e.Agrees ctx snap := by
  rcases Bool.eq_false_or_eq_true ctx.token.tripped with htripped | hclear
  · refine .inl ⟨htripped, ?_⟩
    simp only [snapshot, reads, Store.under, GuardedStore.feedCounters, CancelToken.guarded,
      htripped]
    rfl
  · exact .inr ⟨e.overview ctx, snapshot_eq hclear,
      overview_agrees hreach.sound hreach.linked hclear⟩

/-- A category that is below itself, with a feed that has two articles: a marked one with a label,
and one that has been read. -/
def circularArticles : List Operation :=
  [.addCategory 1 (some 1) "A", .addFeed ⟨1, "u", none, none, some 1, none, none⟩,
   .addLabel 1 "L",
   .addArticle ⟨"m", "m", none, "", none, 0, ⟨1715342400, 0⟩, ⟨1715342400, 0⟩⟩
     ⟨1, some 1, true, true, false, none, none, none, none, "", ""⟩,
   .assignLabel 1 1,
   .addArticle ⟨"r", "r", none, "", none, 0, ⟨1715342400, 0⟩, ⟨1715342400, 0⟩⟩
     ⟨1, some 1, false, false, false, none, none, none, none, "", ""⟩]

def circularEngine : Engine := ⟨Store.ofHistory circularArticles, .none, .standard⟩

/-- The marked article is counted once. -/
theorem snapshot_agrees_circular : circularEngine.store.Reachable ∧
    ∃ snap, circularEngine.snapshot archivedContext = .ok snap ∧
      circularEngine.Agrees archivedContext snap ∧ snap.feeds = [(1, ⟨1, 1⟩)] ∧
      snap.categories = [(0, ⟨0, 0⟩), (1, ⟨1, 1⟩)] ∧ snap.labels = [(1, 1)] := by
  have hreach : circularEngine.store.Reachable := ⟨circularArticles, rfl⟩
  refine ⟨hreach, ?_⟩
  rcases snapshot_agrees circularEngine archivedContext hreach with
    ⟨htripped, -⟩ | ⟨snap, hsnap, hagrees⟩
  · cases htripped
  · have hnumbers : (circularEngine.snapshot archivedContext).map
        (fun snap => (snap.feeds, snap.categories, snap.labels)) =
        .ok ([(1, ⟨1, 1⟩)], [(0, ⟨0, 0⟩), (1, ⟨1, 1⟩)], [(1, 1)]) := by decide +kernel
    rw [hsnap] at hnumbers
    obtain ⟨hfeeds, hcategories, hlabels⟩ := by simpa [Except.map] using hnumbers
    exact ⟨snap, hsnap, hagrees, hfeeds, hcategories, hlabels⟩

end Engine

end Newsfeed
