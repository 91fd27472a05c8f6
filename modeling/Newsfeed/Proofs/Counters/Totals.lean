import Newsfeed.Proofs.Counters.Special

/-!
The numbers of an overview against one another. An unread copy of a live feed is counted once among
the feeds, and once among the categories at the top and what stands in none. With the archived ones
these are all unread copies.
-/

namespace Newsfeed

open Predicate

namespace Store

/-- The owner's categories that stand in none. -/
def topCategories (s : Store) (owner : Int) : List Int :=
  (s.categories.filter fun c => c.owner = owner ∧ c.parent = none).map Category.id

/-- The owner's categories are a forest with so many levels below its tops, and the feeds of the
owner's live copies stand in it or in no category. -/
structure Forested (s : Store) (owner : Int) (height : Nat) : Prop where
  parent : ∀ c ∈ s.categories, c.owner = owner → ∀ id, c.parent = some id →
    s.Owns owner (.category id)
  /-- No way up is longer. One that runs in a circle would have no longest. -/
  height : ∀ top k id, s.Above owner top k id → k ≤ height
  feed : ∀ c ∈ s.copies, c.owner = owner → ∀ f ∈ s.feeds, c.feed = some f.id →
    ∀ id, f.category = some id → s.Owns owner (.category id)

variable {s : Store} {owner : Int}

theorem mem_topCategories {depth : Nat} {id : Int} : id ∈ s.topCategories owner ↔
    (CategoryForest.ofCategories (s.categoriesOfOwner owner) depth).IsTop id := by
  rw [topCategories, CategoryForest.IsTop, mem_links]
  simp only [List.mem_map, List.mem_filter, decide_eq_true_eq]
  constructor
  · rintro ⟨c, ⟨hc, howner, hparent⟩, hid⟩
    exact ⟨c, hc, howner, hid, hparent⟩
  · rintro ⟨c, hc, howner, hid, hparent⟩
    exact ⟨c, ⟨hc, howner, hparent⟩, hid⟩

theorem owns_category {depth : Nat} {id : Int} : s.Owns owner (.category id) ↔
    id ∈ (CategoryForest.ofCategories (s.categoriesOfOwner owner) depth).links.map
      CategoryLink.id := by
  constructor
  · rintro ⟨c, hc, rfl, howner⟩
    exact List.mem_map.mpr ⟨⟨c.id, c.parent⟩, mem_links.mpr ⟨c, hc, howner, rfl, rfl⟩, rfl⟩
  · intro hid
    obtain ⟨⟨_, parent⟩, hlink, rfl⟩ := List.mem_map.mp hid
    obtain ⟨c, hc, howner, hid, -⟩ := mem_links.mp hlink
    exact ⟨c, hc, hid, howner⟩

theorem topCategories_nodup (h : Sound s) (hlinks : Linked s) (owner : Int) :
    (0 :: s.topCategories owner).Nodup := by
  refine List.nodup_cons.mpr ⟨fun hzero => ?_, ?_⟩
  · obtain ⟨c, hc, hid⟩ := List.mem_map.mp hzero
    exact absurd (hlinks.category_pos (List.mem_filter.mp hc).1) (by omega)
  · exact h.categories.nodup.sublist (List.filter_sublist.map _)

/-- In a forest every category is a top or below one. -/
theorem Forested.exists_top {height : Nat} (hforest : s.Forested owner height) {id : Int}
    (hid : s.Owns owner (.category id)) :
    ∃ top ∈ s.topCategories owner, id = top ∨ ∃ k ≤ height, s.Above owner top k id := by
  have hparent : ∀ id parent,
      ⟨id, some parent⟩ ∈ (CategoryForest.ofCategories (s.categoriesOfOwner owner) height).links →
        parent ∈ (CategoryForest.ofCategories (s.categoriesOfOwner owner) height).links.map
          CategoryLink.id := by
    intro id parent hlink
    obtain ⟨c, hc, howner, -, hc'⟩ := mem_links.mp hlink
    exact owns_category.mp (hforest.parent c hc howner parent hc')
  obtain ⟨top, htop, hbelow⟩ := CategoryForest.exists_top hparent height (owns_category.mp hid)
    fun above k hclimb => hforest.height above k id (above_iff.mpr hclimb)
  refine ⟨top, mem_topCategories.mpr htop, hbelow.imp_right ?_⟩
  rintro ⟨k, hclimb⟩
  have habove : s.Above owner top k id := above_iff.mpr hclimb
  exact ⟨k, hforest.height top k id habove, habove⟩

theorem Forested.category {height : Nat} (hforest : s.Forested owner height) {r : Joined}
    (hr : s.IsRow r) (howner : r.copy.owner = owner) :
    r.category = 0 ∨ s.Owns owner (.category r.category) := by
  unfold Joined.category
  cases hcategory : r.feed.bind Feed.category with
  | none => exact .inl rfl
  | some id =>
    obtain ⟨f, hf, hid⟩ := Option.bind_eq_some_iff.mp hcategory
    obtain ⟨hmem, hfeed⟩ := (hr.feed f).mp hf
    exact .inr (hforest.feed r.copy hr.copy howner f hmem hfeed id hid)

/-- The unread copies of live feeds. -/
def liveUnread (s : Store) (owner : Int) : Int :=
  s.countRows owner fun r => r.copy.feed.isSome && r.copy.unread

/-- The feeds together count every unread copy of a live feed. -/
theorem sum_feedTallies (s : Store) (owner : Int) (since : Time.Instant) :
    ((feedTallies (s.feedsOfOwner owner) (s.feedCounters owner since)).map
      fun entry => entry.2.unread).sum = s.liveUnread owner := by
  set entries := feedTallies (s.feedsOfOwner owner) (s.feedCounters owner since)
  have hkeys : (entries.map fun entry => some entry.1).Nodup :=
    List.pairwise_map.mpr ((byId_feedTallies _ s owner since).imp fun hlt hsame =>
      Int.ne_of_lt hlt (Option.some.inj hsame))
  have hsum := sum_countP (fun r : Joined => r.copy.feed) (fun r => r.copy.unread) hkeys
    (s.ownRows owner)
  rw [List.map_map] at hsum
  have hentry : ∀ entry ∈ entries, entry.2.unread = ((s.ownRows owner).countP fun r =>
      decide (r.copy.feed = some entry.1) && r.copy.unread : Nat) := by
    rintro ⟨feed, t⟩ hmem
    rw [((mem_feedTallies s owner since).mp hmem).2]
    rfl
  rw [List.map_congr_left hentry]
  refine hsum.trans (congrArg Nat.cast (List.countP_congr fun r hr => ?_))
  simp only [Bool.and_eq_true, decide_eq_true_eq]
  refine and_congr_left fun _ => ?_
  rw [Option.isSome_iff_exists]
  constructor
  · intro hfeed
    obtain ⟨entry, -, hfeed⟩ := List.mem_map.mp hfeed
    exact ⟨entry.1, hfeed.symm⟩
  · rintro ⟨feed, hfeed⟩
    have hmem : (feed, s.feedTally owner feed) ∈ entries :=
      (mem_feedTallies s owner since).mpr ⟨.inr (mem_feedKeys.mpr ⟨r, hr, hfeed⟩), rfl⟩
    exact List.mem_map.mpr ⟨_, hmem, hfeed.symm⟩

end Store

/-- The totals of an overview lose nothing and count nothing twice. -/
structure Engine.AddsUp (e : Engine) (ctx : Context) (snap : Snapshot) : Prop where
  feeds : snap.unread = (snap.feeds.map fun entry => entry.2.unread).sum
  tops : ∃ number : Int → Tally,
    (∀ id ∈ 0 :: e.store.topCategories ctx.owner, snap.categories.lookup id = some (number id)) ∧
      snap.unread = (number 0).unread +
        ((e.store.topCategories ctx.owner).map fun id => (number id).unread).sum
  all : ∃ archived, snap.virtualFeeds.lookup SpecialFeed.archived.id = some archived ∧
    snap.virtualFeeds.lookup SpecialFeed.all.id = some (snap.unread + archived)

namespace Engine

variable {e : Engine} {ctx : Context}

theorem overview_unread : (e.overview ctx).unread = e.store.liveUnread ctx.owner :=
  Store.sumOf_live (e.store.counts_unread ctx.owner _)

theorem lookup_category (h : Store.Sound e.store) (hlinks : Store.Linked e.store) {id : Int}
    (hid : id = 0 ∨ e.store.Owns ctx.owner (.category id)) :
    (e.overview ctx).categories.lookup id = some (e.branchTally ctx id) := by
  have hlisted : ∃ t, (id, t) ∈ (e.overview ctx).categories := by
    refine (category_listed id).mpr (hid.imp_right ?_)
    rintro ⟨c, hc, hsame, howner⟩
    exact ⟨c, hc, howner, hsame⟩
  obtain ⟨t, ht⟩ := hlisted
  rw [← categoryTally_eq h hlinks ht]
  exact (byId_categoryTallies _ _).lookup_eq ht

/-- What stands in no category and the branches of two tops share no category. -/
theorem categoriesIn_apart (h : Store.Sound e.store) (hlinks : Store.Linked e.store)
    {top other id : Int} (htop : top ∈ 0 :: e.store.topCategories ctx.owner)
    (hother : other ∈ 0 :: e.store.topCategories ctx.owner) (hne : top ≠ other)
    (hid : id ∈ e.categoriesIn ctx top true) : id ∉ e.categoriesIn ctx other true := by
  intro hid'
  rcases List.mem_cons.mp htop with rfl | htop
  · rw [mem_categoriesIn_zero h hlinks] at hid
    rw [hid, zero_mem_categoriesIn h hlinks] at hid'
    exact hne hid'.symm
  rcases List.mem_cons.mp hother with rfl | hother
  · rw [mem_categoriesIn_zero h hlinks] at hid'
    rw [hid', zero_mem_categoriesIn h hlinks] at hid
    exact hne hid
  · exact CategoryForest.branch_apart (ownForest_distinct h) (Store.mem_topCategories.mp htop)
      (Store.mem_topCategories.mp hother) hne hid hid'

section Forest

variable (h : Store.Sound e.store) (hlinks : Store.Linked e.store)
  (hforest : e.store.Forested ctx.owner e.limits.categoryDepth)
include h hlinks hforest

/-- Every row of the owner stands in the branch of a top or in no category. -/
theorem exists_branch {r : Joined} (hr : r ∈ e.store.ownRows ctx.owner) :
    ∃ top ∈ 0 :: e.store.topCategories ctx.owner, r.category ∈ e.categoriesIn ctx top true := by
  obtain ⟨hrow, howner⟩ := (Store.mem_ownRows h).mp hr
  rcases hforest.category hrow howner with hzero | howns
  · exact ⟨0, List.mem_cons_self, (mem_categoriesIn_zero h hlinks).mpr hzero⟩
  · obtain ⟨top, htop, hbelow⟩ := hforest.exists_top howns
    exact ⟨top, List.mem_cons_of_mem _ htop, (mem_ownBranch h).mpr hbelow⟩

/-- The branches of the tops and what stands in none count every unread copy of a live feed. -/
theorem sum_branches :
    ((0 :: e.store.topCategories ctx.owner).map fun id => (e.branchTally ctx id).unread).sum =
      e.store.liveUnread ctx.owner := by
  have hapart : (0 :: e.store.topCategories ctx.owner).Pairwise fun top other =>
      ∀ r ∈ e.store.ownRows ctx.owner,
        (decide (r.category ∈ e.categoriesIn ctx top true) &&
          (r.copy.feed.isSome && r.copy.unread)) →
        (decide (r.category ∈ e.categoriesIn ctx other true) &&
          (r.copy.feed.isSome && r.copy.unread)) = false := by
    refine (Store.topCategories_nodup h hlinks ctx.owner).imp_of_mem ?_
    intro top other htop hother hne r _ hr
    rw [Bool.and_eq_true, decide_eq_true_eq] at hr
    simp [categoriesIn_apart h hlinks htop hother hne hr.1]
  refine (sum_countP_apart _ hapart).trans
    (congrArg Nat.cast (List.countP_congr fun r hr => ?_))
  simp only [List.any_eq_true, Bool.and_eq_true, decide_eq_true_eq]
  constructor
  · rintro ⟨top, -, -, hunread⟩
    exact hunread
  · intro hunread
    obtain ⟨top, htop, hbranch⟩ := exists_branch h hlinks hforest hr
    exact ⟨top, htop, hbranch, hunread⟩

theorem overview_addsUp : e.AddsUp ctx (e.overview ctx) := by
  constructor
  case feeds =>
    rw [overview_unread]
    exact (Store.sum_feedTallies e.store ctx.owner _).symm
  case tops =>
    refine ⟨e.branchTally ctx, fun id hid => lookup_category h hlinks ?_, ?_⟩
    · refine (List.mem_cons.mp hid).imp_right fun htop => ?_
      obtain ⟨c, hc, hsame⟩ := List.mem_map.mp htop
      obtain ⟨hmem, hc⟩ := List.mem_filter.mp hc
      exact ⟨c, hmem, hsame, (of_decide_eq_true hc).1⟩
    · rw [overview_unread, ← sum_branches h hlinks hforest, List.map_cons, List.sum_cons]
  case all =>
    refine ⟨e.specialNumber ctx .archived, Store.lookup_special .archived, ?_⟩
    rw [overview_unread, Store.liveUnread, specialNumber]
    refine (Store.lookup_special .all).trans (congrArg some ?_)
    exact Store.countRows_split e.store ctx.owner fun r => r.copy.unread

end Forest

/-- Where the owner's categories are a forest, the numbers of an overview add up: the unread copies
of live feeds are those of all feeds, and those of the categories at the top and of what stands in
none; with the archived ones they are those of all articles. -/
theorem snapshot_addsUp (e : Engine) (ctx : Context) (hreach : e.store.Reachable)
    (hforest : e.store.Forested ctx.owner e.limits.categoryDepth) :
    (ctx.token.tripped = true ∧ e.snapshot ctx = .error .cancelled) ∨
      ∃ snap, e.snapshot ctx = .ok snap ∧ e.AddsUp ctx snap := by
  rcases Bool.eq_false_or_eq_true ctx.token.tripped with htripped | hclear
  · exact .inl ⟨htripped, snapshot_tripped htripped⟩
  · exact .inr ⟨e.overview ctx, snapshot_eq hclear,
      overview_addsUp hreach.sound hreach.linked hforest⟩

/-- A category with another below it, a feed in the lower one, a feed in none, and an unread article
in each feed and one that is archived. -/
def nestedArticles : List Operation :=
  let article (guid : String) (feed : Option Int) : Operation :=
    .addArticle ⟨guid, guid, none, "", none, 0, ⟨1715342400, 0⟩, ⟨1715342400, 0⟩⟩
      ⟨1, feed, true, false, false, none, none, none, none, "", ""⟩
  [.addCategory 1 none "A", .addCategory 1 (some 1) "B",
   .addFeed ⟨1, "u", none, none, some 2, none, none⟩,
   .addFeed ⟨1, "v", none, none, none, none, none⟩,
   article "u" (some 1), article "v" (some 2), article "w" none]

def nestedEngine : Engine := ⟨Store.ofHistory nestedArticles, .none, .standard⟩

theorem nested_forested : nestedEngine.store.Forested 1 64 := by
  have hcategories : nestedEngine.store.categories = [⟨1, 1, none, "A"⟩, ⟨2, 1, some 1, "B"⟩] := rfl
  have hfeeds : nestedEngine.store.feeds =
      [⟨1, 1, "u", none, none, some 2, none, none⟩, ⟨2, 1, "v", none, none, none, none, none⟩] := rfl
  constructor
  case parent =>
    intro c hc _ id hparent
    rw [hcategories] at hc
    rcases List.mem_pair.mp hc with rfl | rfl <;> cases hparent
    exact ⟨⟨1, 1, none, "A"⟩, by simp [hcategories], rfl, rfl⟩
  case height =>
    intro top k id habove
    have hlow {id parent : Int} (hlink : ⟨id, some parent⟩ ∈
        (CategoryForest.ofCategories (nestedEngine.store.categoriesOfOwner 1) 64).links) :
        id = 2 ∧ parent = 1 := by
      obtain ⟨c, hc, -, rfl, hparent⟩ := Store.mem_links.mp hlink
      rw [hcategories] at hc
      rcases List.mem_pair.mp hc with rfl | rfl <;> cases hparent
      exact ⟨rfl, rfl⟩
    cases Store.above_iff.mp habove with
    | one _ => decide
    | more hlink hclimb =>
      obtain ⟨-, rfl⟩ := hlow hlink
      -- There is nothing above category 1.
      cases hclimb with
      | one hlink => cases (hlow hlink).1
      | more hlink _ => cases (hlow hlink).1
  case feed =>
    intro c _ _ f hf _ id hid
    rw [hfeeds] at hf
    rcases List.mem_pair.mp hf with rfl | rfl <;> cases hid
    exact ⟨⟨2, 1, some 1, "B"⟩, by simp [hcategories], rfl, rfl⟩

/-- The unread articles of live feeds are those of the one category at the top and of none. -/
theorem snapshot_addsUp_nested : nestedEngine.store.Reachable ∧
    nestedEngine.store.Forested archivedContext.owner nestedEngine.limits.categoryDepth ∧
    ∃ snap, nestedEngine.snapshot archivedContext = .ok snap ∧
      nestedEngine.AddsUp archivedContext snap ∧ snap.unread = 2 ∧
      ∃ zero one, snap.categories.lookup 0 = some zero ∧ snap.categories.lookup 1 = some one ∧
        zero.unread + one.unread = 2 := by
  have hreach : nestedEngine.store.Reachable := ⟨nestedArticles, rfl⟩
  have htops : nestedEngine.store.topCategories archivedContext.owner = [1] := rfl
  have htwo : nestedEngine.store.liveUnread archivedContext.owner = 2 := by decide +kernel
  refine ⟨hreach, nested_forested, ?_⟩
  rcases snapshot_addsUp nestedEngine archivedContext hreach nested_forested with
    ⟨htripped, -⟩ | ⟨snap, hsnap, hsums⟩
  · cases htripped
  · obtain rfl : nestedEngine.overview archivedContext = snap :=
      Except.ok.inj ((snapshot_eq rfl).symm.trans hsnap)
    have hunread := overview_unread.trans htwo
    obtain ⟨number, hlookup, hsum⟩ := hsums.tops
    rw [htops] at hlookup hsum
    refine ⟨_, hsnap, hsums, hunread, number 0, number 1, hlookup 0 (by simp),
      hlookup 1 (by simp), ?_⟩
    simpa [hunread] using hsum.symm

end Engine

end Newsfeed
